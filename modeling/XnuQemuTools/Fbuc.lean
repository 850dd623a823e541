/-
The framebuffer user client, `aleph_bdev_drv/src/aleph_fbuc_dev.c`.

`FBUCMembers` is `task`, then the eight records of `notif_ports`, then the 0x60 entries
of `fbuc_external_methods`. Its bytes are a `Mem` whose addresses are offsets from
`members`, modulo `2^64` as the code's addresses are: nothing in the address of
`notif_ports[type]` keeps it inside `notif_ports`. An access is an operation on a
`Place`, the C expression with its index still in it, so which elements a function
accesses can be read off its operations.

`code` is the life of one object: `fbuc_start`, and then any virtual calls at all, one
after the other. `env` is what surrounds it. The two IOKit functions that the user
client relies on are as it uses them: `IOUserClient::externalMethod` compares the four
counts with the entry it is given and calls its function, and `setAsyncReference64`
writes the eight words it is given, with whatever values.
-/
import XnuQemuTools.Calls
import XnuQemuTools.Words

set_option autoImplicit false

namespace XnuQemuTools.Fbuc

open Calls Calls.Prog Memory

/-! ## `FBUCMembers` -/

/-- `FBUC_MAX_EXT_FUNCS`. -/
def FBUC_MAX_EXT_FUNCS : UInt64 := 0x60

/-- `FBUC_MAX_NOTIF_PORTS`. -/
def FBUC_MAX_NOTIF_PORTS : UInt64 := 8

/-- The fields of `NotifPortInfo`; the last is an array of eight words. -/
inductive NotifPortField where
  | type
  | ref
  | port
  | asnyc_ref64

def NotifPortField.offset : NotifPortField → ℕ
  | .type => 0
  | .ref => 8
  | .port => 16
  | .asnyc_ref64 => 24

def NotifPortField.size : NotifPortField → ℕ
  | .asnyc_ref64 => 64
  | _ => 8

/-- The fields of `IOExternalMethodDispatch`. -/
inductive DispatchField where
  | function
  | checkScalarInputCount
  | checkStructureInputSize
  | checkScalarOutputCount
  | checkStructureOutputSize

def DispatchField.offset : DispatchField → ℕ
  | .function => 0
  | .checkScalarInputCount => 8
  | .checkStructureInputSize => 12
  | .checkScalarOutputCount => 16
  | .checkStructureOutputSize => 20

def DispatchField.size : DispatchField → ℕ
  | .function => 8
  | _ => 4

/-- What the functions access of `members`. -/
inductive Place where
  | task
  | notif_ports (index : UInt64) (field : NotifPortField)
  | fbuc_external_methods (index : UInt64) (field : DispatchField)

/-- Where a place is, from `members` on. -/
def Place.offset : Place → ℕ
  | .task => 0
  | .notif_ports index field => (8 + 88 * index.toNat + field.offset) % 2 ^ 64
  | .fbuc_external_methods index field => (712 + 24 * index.toNat + field.offset) % 2 ^ 64

def Place.size : Place → ℕ
  | .task => 8
  | .notif_ports _ field => field.size
  | .fbuc_external_methods _ field => field.size

/-- The bytes of a place. Those of an array may go around the end of the address
space. -/
def Place.Covers (p : Place) (a : ℕ) : Prop := ∃ j, j < p.size ∧ a = (p.offset + j) % 2 ^ 64

/-- `sizeof(FBUCMembers)`. -/
def sizeofMembers : ℕ := 3016

/-! ## The operations -/

/-- The external methods, without their prefix `fbuc_ext_meth_`. -/
inductive Method where
  | get_layer_default_sur
  | swap_begin
  | swap_end
  | swap_wait
  | get_id
  | get_disp_size
  | req_power_change
  | set_debug_flags
  | set_gamma_table
  | is_main_disp
  | set_display_dev
  | get_gamma_table
  | get_dot_pitch
  | en_dis_vid_power_save
  | surface_is_rep
  | set_bright_corr
  | set_matrix
  | get_color_remap_mode
  | set_parameter
  | enable_notifications
  | change_frame_info
  | supported_frame_info
  deriving DecidableEq

def Method.all : List Method :=
  [.get_layer_default_sur, .swap_begin, .swap_end, .swap_wait, .get_id, .get_disp_size,
    .req_power_change, .set_debug_flags, .set_gamma_table, .is_main_disp, .set_display_dev,
    .get_gamma_table, .get_dot_pitch, .en_dis_vid_power_save, .surface_is_rep, .set_bright_corr,
    .set_matrix, .get_color_remap_mode, .set_parameter, .enable_notifications,
    .change_frame_info, .supported_frame_info]

theorem Method.mem_all (m : Method) : m ∈ Method.all := by cases m <;> decide

/-- Where the functions are. Functions have different addresses, and none is null. -/
structure Image where
  address : Method → UInt64
  injective : Function.Injective address
  ne_null : ∀ m, address m ≠ 0

/-- The external method at an address. -/
def Image.methodAt (image : Image) (a : UInt64) : Option Method :=
  Method.all.find? fun m => image.address m = a

theorem Image.methodAt_address (image : Image) (m : Method) :
    image.methodAt (image.address m) = some m := by
  have hfound : (image.methodAt (image.address m)).isSome := by
    rw [Image.methodAt, List.find?_isSome]
    exact ⟨m, m.mem_all, decide_eq_true rfl⟩
  obtain ⟨m', hm'⟩ := Option.isSome_iff_exists.mp hfound
  have hfind : (Method.all.find? fun m' => image.address m' = image.address m) = some m' := hm'
  have hsame : image.address m' = image.address m := by
    simpa only [decide_eq_true_eq] using List.find?_some hfind
  rw [hm', image.injective hsame]

/-- What of `IOExternalMethodArguments` is used. A descriptor in the place of a structure
is left out, so the structure sizes are the ones that IOKit compares. -/
structure IOExternalMethodArguments where
  scalarInput : ℕ → UInt64
  scalarInputCount : UInt32
  structureInputSize : UInt32
  scalarOutputCount : UInt32
  structureOutputSize : UInt32

/-- The virtual calls of the object that do something to `members`. -/
inductive VirtualCall where
  | fbuc_start
  | fbuc_initWithTask (task sid type : UInt64)
  | fbuc_registerNotificationPort (port type ref : UInt64)
  | fbuc_externalMethod (selector : UInt32) (args : IOExternalMethodArguments)

/-- What the user client does: access `members`, call IOKit, write to the buffers of
the arguments. `nextCall` is the wait for the next virtual call, and `unknownFunction` a
call of an address that is none of the external methods. -/
inductive FbucOp where
  | nextCall
  | load (p : Place)
  | store (p : Place) (v : UInt64)
  | IOService_start
  | IOUserClient_initWithTask (task sid type : UInt64)
  | IOUserClient_setAsyncReference64 (aref : Place) (port cb ref task : UInt64)
  | IOUserClient_sendAsyncResult64 (aref : Place) (res : UInt64) (args : List UInt64)
  | scalarOutput (i : ℕ) (v : UInt64)
  | structureOutput (bytes : List UInt8)
  | unknownFunction (address : UInt64)
  | cancel

/-- What each answers. `cancel()` writes to address 0 and never answers. -/
abbrev FbucRes : FbucOp → Type
  | .nextCall => VirtualCall
  | .load _ => UInt64
  | .store _ _ => Unit
  | .IOService_start => UInt64
  | .IOUserClient_initWithTask _ _ _ => UInt64
  | .IOUserClient_setAsyncReference64 _ _ _ _ _ => Unit
  | .IOUserClient_sendAsyncResult64 _ _ _ => Unit
  | .scalarOutput _ _ => Unit
  | .structureOutput _ => Unit
  | .unknownFunction _ => UInt64
  | .cancel => Empty

/-- A piece of the user client. -/
abbrev FbucProg : Type → Type := Prog FbucOp FbucRes

/-- `cancel()`. -/
def cancel {α : Type} : FbucProg α := do
  let never ← perform FbucOp.cancel
  never.elim

/-! ## The external methods -/

/-- `arguments->scalarOutput[i] = v` for the values `v` in turn. -/
def scalarOutputs : ℕ → List UInt64 → FbucProg UInt64
  | _, [] => pure 0
  | i, v :: vs => do
      let _ ← perform (FbucOp.scalarOutput i v)
      scalarOutputs (i + 1) vs

/-- A method that only writes its scalar outputs, and returns 0. -/
def answer (outputs : List UInt64) (_ : IOExternalMethodArguments) : FbucProg UInt64 :=
  scalarOutputs 0 outputs

def fbuc_ext_meth_get_layer_default_sur := answer [1]

def fbuc_ext_meth_swap_begin := answer [1]

def fbuc_ext_meth_swap_end := answer []

def fbuc_ext_meth_swap_wait := answer []

def fbuc_ext_meth_get_id := answer [2]

def fbuc_ext_meth_get_disp_size := answer [600, 800]

def fbuc_ext_meth_req_power_change := answer []

def fbuc_ext_meth_set_debug_flags := answer [1]

def fbuc_ext_meth_set_gamma_table := answer []

def fbuc_ext_meth_is_main_disp := answer [1]

def fbuc_ext_meth_set_display_dev := answer []

/-- Fills the structure with 0x7f. -/
def fbuc_ext_meth_get_gamma_table (arguments : IOExternalMethodArguments) : FbucProg UInt64 := do
  let _ ← perform
    (FbucOp.structureOutput (List.replicate arguments.structureOutputSize.toNat 0x7f))
  pure 0

def fbuc_ext_meth_get_dot_pitch := answer [0]

def fbuc_ext_meth_en_dis_vid_power_save := answer []

def fbuc_ext_meth_surface_is_rep := answer [1]

def fbuc_ext_meth_set_bright_corr := answer []

def fbuc_ext_meth_set_matrix := answer []

def fbuc_ext_meth_get_color_remap_mode := answer [6]

def fbuc_ext_meth_set_parameter := answer []

/-- Makes `notif_ports[type]` ready to send: `type` is a scalar of the caller. -/
def fbuc_ext_meth_enable_notifications (arguments : IOExternalMethodArguments) :
    FbucProg UInt64 := do
  let cb := arguments.scalarInput 0
  let ref := arguments.scalarInput 1
  let type := arguments.scalarInput 2
  -- no comparison with `FBUC_MAX_NOTIF_PORTS`
  let port ← perform (FbucOp.load (.notif_ports type .port))
  let task ← perform (FbucOp.load .task)
  let _ ← perform (FbucOp.IOUserClient_setAsyncReference64 (.notif_ports type .asnyc_ref64)
    port cb ref task)
  pure 0

/-- Sends to `notif_ports[type]`: `type` is a scalar of the caller. -/
def fbuc_ext_meth_change_frame_info (arguments : IOExternalMethodArguments) :
    FbucProg UInt64 := do
  let type := arguments.scalarInput 0
  -- none here either
  let _ ← perform (FbucOp.IOUserClient_sendAsyncResult64 (.notif_ports type .asnyc_ref64) 0
    [5, 6, 7, 8, 9, 10])
  pure 0

/-- The texts of `fbuc_ext_meth_supported_frame_info`. -/
def frameInfoText (i : UInt64) : Option String :=
  if i = 0 then some "Blend_CRC"
  else if i = 1 then some "Dither_CRC"
  else if i = 2 then some "Presentation_time"
  else if i = 3 then some "Presentation_delta"
  else if i = 4 then some "Requested_presentation"
  else if i = 5 then some "Performance_headroom"
  else if i = 6 then some "Thermal_throttle"
  else if i = 7 then some "Flags"
  else none

/-- The `n` bytes that `strncpy` writes: the text, cut or padded with zeros. -/
def strncpy (text : String) (n : ℕ) : List UInt8 :=
  (text.toUTF8.toList ++ List.replicate n 0).take n

def fbuc_ext_meth_supported_frame_info (arguments : IOExternalMethodArguments) :
    FbucProg UInt64 :=
  match frameInfoText (arguments.scalarInput 0) with
  | none => cancel
  | some text => do
      let _ ← perform
        (FbucOp.structureOutput (strncpy text arguments.structureOutputSize.toNat))
      scalarOutputs 0 [8]

/-- The function of an external method. -/
def Method.run : Method → IOExternalMethodArguments → FbucProg UInt64
  | .get_layer_default_sur => fbuc_ext_meth_get_layer_default_sur
  | .swap_begin => fbuc_ext_meth_swap_begin
  | .swap_end => fbuc_ext_meth_swap_end
  | .swap_wait => fbuc_ext_meth_swap_wait
  | .get_id => fbuc_ext_meth_get_id
  | .get_disp_size => fbuc_ext_meth_get_disp_size
  | .req_power_change => fbuc_ext_meth_req_power_change
  | .set_debug_flags => fbuc_ext_meth_set_debug_flags
  | .set_gamma_table => fbuc_ext_meth_set_gamma_table
  | .is_main_disp => fbuc_ext_meth_is_main_disp
  | .set_display_dev => fbuc_ext_meth_set_display_dev
  | .get_gamma_table => fbuc_ext_meth_get_gamma_table
  | .get_dot_pitch => fbuc_ext_meth_get_dot_pitch
  | .en_dis_vid_power_save => fbuc_ext_meth_en_dis_vid_power_save
  | .surface_is_rep => fbuc_ext_meth_surface_is_rep
  | .set_bright_corr => fbuc_ext_meth_set_bright_corr
  | .set_matrix => fbuc_ext_meth_set_matrix
  | .get_color_remap_mode => fbuc_ext_meth_get_color_remap_mode
  | .set_parameter => fbuc_ext_meth_set_parameter
  | .enable_notifications => fbuc_ext_meth_enable_notifications
  | .change_frame_info => fbuc_ext_meth_change_frame_info
  | .supported_frame_info => fbuc_ext_meth_supported_frame_info

/-! ## The virtual functions -/

section Virtual

variable (image : Image)

def fbuc_install_external_method (func : Method) (index : UInt64) (scic stic scoc stoc : UInt32) :
    FbucProg Unit :=
  if index ≥ FBUC_MAX_EXT_FUNCS then cancel
  else do
    let _ ← perform (FbucOp.store (.fbuc_external_methods index .function) (image.address func))
    let _ ← perform
      (FbucOp.store (.fbuc_external_methods index .checkScalarInputCount) scic.toUInt64)
    let _ ← perform
      (FbucOp.store (.fbuc_external_methods index .checkStructureInputSize) stic.toUInt64)
    let _ ← perform
      (FbucOp.store (.fbuc_external_methods index .checkScalarOutputCount) scoc.toUInt64)
    perform (FbucOp.store (.fbuc_external_methods index .checkStructureOutputSize) stoc.toUInt64)

def fbuc_start : FbucProg UInt64 := do
  fbuc_install_external_method image .get_layer_default_sur 3 2 0 1 0
  fbuc_install_external_method image .swap_begin 4 0 0 1 0
  fbuc_install_external_method image .swap_end 5 0 (-1) 0 0
  fbuc_install_external_method image .swap_wait 6 3 0 0 0
  fbuc_install_external_method image .get_id 7 0 0 1 0
  fbuc_install_external_method image .get_disp_size 8 0 0 2 0
  fbuc_install_external_method image .req_power_change 12 1 0 0 0
  fbuc_install_external_method image .set_debug_flags 15 2 0 1 0
  fbuc_install_external_method image .set_gamma_table 17 0 3084 0 0
  fbuc_install_external_method image .is_main_disp 18 0 0 1 0
  fbuc_install_external_method image .set_display_dev 22 1 0 0 0
  fbuc_install_external_method image .get_gamma_table 27 0 0 0 3084
  fbuc_install_external_method image .get_dot_pitch 28 0 0 1 0
  fbuc_install_external_method image .en_dis_vid_power_save 33 1 0 0 0
  fbuc_install_external_method image .surface_is_rep 49 1 0 1 0
  fbuc_install_external_method image .set_bright_corr 50 1 0 0 0
  fbuc_install_external_method image .set_matrix 55 1 72 0 0
  fbuc_install_external_method image .get_color_remap_mode 57 0 0 1 0
  fbuc_install_external_method image .set_parameter 68 1 8 0 0
  fbuc_install_external_method image .enable_notifications 72 4 0 0 0
  fbuc_install_external_method image .change_frame_info 73 2 0 0 0
  fbuc_install_external_method image .supported_frame_info 74 1 0 1 64
  perform FbucOp.IOService_start

/-- `kIOReturnBadArgument`. -/
def kIOReturnBadArgument : UInt64 := 0xe00002c2

/-- A count passes if the entry asks for it, or for any. -/
def countPasses (check : UInt64) (count : UInt32) : Bool :=
  check = 0xffffffff || check = count.toUInt64

/-- The call of the function of an entry. -/
def callFunction (function : UInt64) (args : IOExternalMethodArguments) : FbucProg UInt64 :=
  match image.methodAt function with
  | some m => m.run args
  -- only an entry that was overwritten comes here
  | none => perform (FbucOp.unknownFunction function)

/-- `IOUserClient::externalMethod`, given the entry `fbuc_external_methods[index]`. -/
def IOUserClient_externalMethod (args : IOExternalMethodArguments) (index : UInt64) :
    FbucProg UInt64 := do
  let scic ← perform (FbucOp.load (.fbuc_external_methods index .checkScalarInputCount))
  let stic ← perform (FbucOp.load (.fbuc_external_methods index .checkStructureInputSize))
  let scoc ← perform (FbucOp.load (.fbuc_external_methods index .checkScalarOutputCount))
  let stoc ← perform (FbucOp.load (.fbuc_external_methods index .checkStructureOutputSize))
  if countPasses scic args.scalarInputCount && countPasses stic args.structureInputSize
      && countPasses scoc args.scalarOutputCount && countPasses stoc args.structureOutputSize then
    let function ← perform (FbucOp.load (.fbuc_external_methods index .function))
    callFunction image function args
  else
    pure kIOReturnBadArgument

def fbuc_externalMethod (selector : UInt32) (args : IOExternalMethodArguments) :
    FbucProg UInt64 :=
  if selector.toUInt64 ≥ FBUC_MAX_EXT_FUNCS then cancel
  else do
    let function ← perform (FbucOp.load (.fbuc_external_methods selector.toUInt64 .function))
    if function = 0 then cancel
    else IOUserClient_externalMethod image args selector.toUInt64

def fbuc_registerNotificationPort (port type ref : UInt64) : FbucProg UInt64 :=
  if type ≥ FBUC_MAX_NOTIF_PORTS then cancel
  else do
    let _ ← perform (FbucOp.store (.notif_ports type .type) type)
    let _ ← perform (FbucOp.store (.notif_ports type .port) port)
    let _ ← perform (FbucOp.store (.notif_ports type .ref) ref)
    pure 0

def fbuc_initWithTask (task sid type : UInt64) : FbucProg UInt64 := do
  let _ ← perform (FbucOp.store .task task)
  perform (FbucOp.IOUserClient_initWithTask task sid type)

def VirtualCall.run : VirtualCall → FbucProg UInt64
  | .fbuc_start => Fbuc.fbuc_start image
  | .fbuc_initWithTask task sid type => Fbuc.fbuc_initWithTask task sid type
  | .fbuc_registerNotificationPort port type ref => Fbuc.fbuc_registerNotificationPort port type ref
  | .fbuc_externalMethod selector args => Fbuc.fbuc_externalMethod image selector args

/-! ## The life of an object -/

/-- Before `fbuc_start`, and between two virtual calls after it. -/
inductive Label where
  | allocated
  | started

def code : Label → Option (FbucProg Label)
  | .allocated => some do
      let _ ← fbuc_start image
      pure .started
  | .started => some do
      let c ← perform FbucOp.nextCall
      let _ ← c.run image
      pure .started

end Virtual

/-- What surrounds the object. `IOUserClient_setAsyncReference64` writes the array it
is given, and a function that is none of the external methods may do anything. -/
def env : Env FbucOp FbucRes Mem
  | .load p, m, v, m' => v = UInt64.ofNat (Words.load m p.offset p.size) ∧ m' = m
  | .store p v, m, _, m' => m' = Words.store m p.offset p.size v.toNat
  | .IOUserClient_setAsyncReference64 aref _ _ _ _, m, _, m' => ∀ a, ¬ aref.Covers a → m' a = m a
  | .unknownFunction _, _, _, _ => True
  | _, m, _, m' => m' = m

/-- A new object: its allocation is zeroed, and of its members only `task` is set
before `fbuc_start`. -/
def Allocated (m : Mem) : Prop := ∀ a, 8 ≤ a → a < sizeofMembers → m a = 0

end XnuQemuTools.Fbuc

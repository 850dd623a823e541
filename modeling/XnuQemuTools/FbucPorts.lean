/-
What guards the notification ports, and the dispatch table behind them.

The table is right after `notif_ports`, so a write through an index from 8 on is a write
of its entries. `fbuc_registerNotificationPort` checks its index; the two external
methods that use one, `enable_notifications` and `change_frame_info`, take it from the
caller as it is. `VirtualCall.Bounded` is the check they lack, as a condition on the
call, and `run_safe_iff` is that it is exactly what is missing: started where the table is
as `fbuc_start` left it, a call stays inside `notif_ports` and keeps the table if and
only if it is bounded. Runs follow by the invariant rule (`notif_ports_guarded`).

The argument about memory is by frames. `FbucOp.Writes` says which addresses an
operation may change, and the bytes of a port with an index below 8 end where the
table begins. The table itself is written by `fbuc_start` alone: on a new object each
of its installations settles an entry, and on one that has been started each of its
stores puts what is there.
-/
import XnuQemuTools.Fbuc

set_option autoImplicit false

namespace XnuQemuTools.Fbuc

open Calls Calls.Prog Memory

/-! ## The table -/

/-- The arguments of a call of `fbuc_install_external_method`. -/
structure Install where
  func : Method
  index : UInt64
  scic : UInt32
  stic : UInt32
  scoc : UInt32
  stoc : UInt32
  deriving DecidableEq

/-- What `fbuc_start` installs. -/
def installs : List Install :=
  [⟨.get_layer_default_sur, 3, 2, 0, 1, 0⟩, ⟨.swap_begin, 4, 0, 0, 1, 0⟩,
    ⟨.swap_end, 5, 0, -1, 0, 0⟩, ⟨.swap_wait, 6, 3, 0, 0, 0⟩, ⟨.get_id, 7, 0, 0, 1, 0⟩,
    ⟨.get_disp_size, 8, 0, 0, 2, 0⟩, ⟨.req_power_change, 12, 1, 0, 0, 0⟩,
    ⟨.set_debug_flags, 15, 2, 0, 1, 0⟩, ⟨.set_gamma_table, 17, 0, 3084, 0, 0⟩,
    ⟨.is_main_disp, 18, 0, 0, 1, 0⟩, ⟨.set_display_dev, 22, 1, 0, 0, 0⟩,
    ⟨.get_gamma_table, 27, 0, 0, 0, 3084⟩, ⟨.get_dot_pitch, 28, 0, 0, 1, 0⟩,
    ⟨.en_dis_vid_power_save, 33, 1, 0, 0, 0⟩, ⟨.surface_is_rep, 49, 1, 0, 1, 0⟩,
    ⟨.set_bright_corr, 50, 1, 0, 0, 0⟩, ⟨.set_matrix, 55, 1, 72, 0, 0⟩,
    ⟨.get_color_remap_mode, 57, 0, 0, 1, 0⟩, ⟨.set_parameter, 68, 1, 8, 0, 0⟩,
    ⟨.enable_notifications, 72, 4, 0, 0, 0⟩, ⟨.change_frame_info, 73, 2, 0, 0, 0⟩,
    ⟨.supported_frame_info, 74, 1, 0, 1, 64⟩]

/-- The installation with an index, if there is one. -/
def installOf (j : UInt64) : Option Install := installs.find? fun e => e.index = j

section Table

variable (image : Image)

/-- What an installation puts into each field. -/
def Install.value (e : Install) : DispatchField → UInt64
  | .function => image.address e.func
  | .checkScalarInputCount => e.scic.toUInt64
  | .checkStructureInputSize => e.stic.toUInt64
  | .checkScalarOutputCount => e.scoc.toUInt64
  | .checkStructureOutputSize => e.stoc.toUInt64

/-- Entry `j` is what `fbuc_start` installed, or has a null function. -/
def EntryKept (m : Mem) (j : UInt64) : Prop :=
  match installOf j with
  | some e => ∀ f : DispatchField,
      Words.load m (Place.fbuc_external_methods j f).offset f.size = (e.value image f).toNat
  | none => Words.load m (Place.fbuc_external_methods j .function).offset 8 = 0

/-- The dispatch table has exactly the entries that `fbuc_start` installed. -/
def TableKept (m : Mem) : Prop := ∀ j, j < FBUC_MAX_EXT_FUNCS → EntryKept image m j

end Table

/-! ## Accesses -/

/-- The index at which an operation accesses `notif_ports`. -/
def FbucOp.notifIndex : FbucOp → Option UInt64
  | .load (.notif_ports i _) => some i
  | .store (.notif_ports i _) _ => some i
  | .IOUserClient_setAsyncReference64 (.notif_ports i _) _ _ _ _ => some i
  | .IOUserClient_sendAsyncResult64 (.notif_ports i _) _ _ => some i
  | _ => none

/-- The operation does not leave `notif_ports`. -/
def InBounds (o : Option FbucOp) : Prop :=
  ∀ op i, o = some op → op.notifIndex = some i → i < FBUC_MAX_NOTIF_PORTS

/-- What must hold at every point: the next operation stays inside `notif_ports`, and
the table is kept. -/
def Safe (image : Image) (o : Option FbucOp) (m : Mem) : Prop := InBounds o ∧ TableKept image m

/-- The counts of a call. -/
def IOExternalMethodArguments.HasCounts (args : IOExternalMethodArguments)
    (scic stic scoc stoc : UInt32) : Prop :=
  args.scalarInputCount = scic ∧ args.structureInputSize = stic
    ∧ args.scalarOutputCount = scoc ∧ args.structureOutputSize = stoc

/-- Where a call passes the comparison of the counts, its index is below 8. -/
def VirtualCall.Bounded : VirtualCall → Prop
  | .fbuc_externalMethod selector args =>
      (selector = 72 → args.HasCounts 4 0 0 0 → args.scalarInput 2 < FBUC_MAX_NOTIF_PORTS)
        ∧ (selector = 73 → args.HasCounts 2 0 0 0 → args.scalarInput 0 < FBUC_MAX_NOTIF_PORTS)
  | _ => True

/-- The next virtual call is bounded. -/
def CallBounded : (op : FbucOp) → FbucRes op → Prop
  | .nextCall, c => c.Bounded
  | _, _ => True

/-- The surroundings of an object whose virtual calls are all bounded. -/
def boundedEnv : Env FbucOp FbucRes Mem := fun op m r m' => env op m r m' ∧ CallBounded op r

/-! ## Frames -/

section Frame

variable {image : Image} {m m' : Mem}

/-- The addresses an operation may change. -/
def FbucOp.Writes : FbucOp → ℕ → Prop
  | .store p _, a => p.offset ≤ a ∧ a < p.offset + p.size
  | .IOUserClient_setAsyncReference64 aref _ _ _ _, a => aref.Covers a
  | .unknownFunction _, _ => True
  | _, _ => False

theorem env_frame {op : FbucOp} {r : FbucRes op} (h : env op m r m') {a : ℕ}
    (ha : ¬ op.Writes a) : m' a = m a := by
  cases op with
  | load p => rw [h.2]
  | store p v =>
      obtain rfl : m' = Words.store m p.offset p.size v.toNat := h
      exact Words.store_outside (by
        have hrange : ¬ (p.offset ≤ a ∧ a < p.offset + p.size) := ha
        omega)
  | IOUserClient_setAsyncReference64 aref port cb ref task => exact h a ha
  | unknownFunction address => exact absurd trivial ha
  | cancel => exact r.elim
  | _ => exact congrFun (h : m' = m) a

theorem DispatchField.offset_size (f : DispatchField) : f.offset + f.size ≤ 24 := by
  cases f <;> decide

theorem NotifPortField.offset_size (f : NotifPortField) : f.offset + f.size ≤ 88 := by
  cases f <;> decide

theorem offset_external_methods {j : UInt64} (hj : j < FBUC_MAX_EXT_FUNCS) (f : DispatchField) :
    (Place.fbuc_external_methods j f).offset = 712 + 24 * j.toNat + f.offset := by
  have hlt : j.toNat < 0x60 := UInt64.lt_iff_toNat_lt.mp hj
  have hfield := f.offset_size
  exact Nat.mod_eq_of_lt (by omega)

/-- The table is a matter of its own bytes. -/
theorem TableKept.congr (h : TableKept image m)
    (hsame : ∀ a, 712 ≤ a → a < sizeofMembers → m' a = m a) : TableKept image m' := by
  intro j hj
  have hload : ∀ f : DispatchField,
      Words.load m' (Place.fbuc_external_methods j f).offset f.size
        = Words.load m (Place.fbuc_external_methods j f).offset f.size := by
    intro f
    have hlt : j.toNat < 0x60 := UInt64.lt_iff_toNat_lt.mp hj
    have hfield := f.offset_size
    rw [offset_external_methods hj]
    refine Words.load_congr f.size _ fun b hb hn => hsame b (by omega) ?_
    unfold sizeofMembers
    omega
  have hentry := h j hj
  -- both cases of an entry are about loads from it
  unfold EntryKept at hentry ⊢
  split
  · rename_i e he
    rw [he] at hentry
    exact fun f => (hload f).trans (hentry f)
  · rename_i he
    rw [he] at hentry
    exact (hload .function).trans hentry

/-- An operation that stays inside `notif_ports` and writes nothing of the table. -/
structure FbucOp.Quiet (op : FbucOp) : Prop where
  inBounds : InBounds (some op)
  frame : ∀ a, 712 ≤ a → a < sizeofMembers → ¬ op.Writes a

/-- The rule for quiet operations. -/
theorem FbucOp.Quiet.safe {α : Type} {op : FbucOp} {k : FbucRes op → FbucProg α}
    {Q : α → Mem → Prop} (hquiet : op.Quiet) (hkept : TableKept image m)
    (hk : ∀ r m', env op m r m' → TableKept image m' → Always env (Safe image) Q (k r) m') :
    Always env (Safe image) Q (Prog.call op k) m := by
  refine always_call.mpr ⟨⟨hquiet.inBounds, hkept⟩, fun r m' hr => hk r m' hr ?_⟩
  exact hkept.congr fun a ha hlt => env_frame hr (hquiet.frame a ha hlt)

/-- Operations that neither access `notif_ports` nor write `members`. -/
theorem quiet_of_silent (op : FbucOp) (hnone : op.notifIndex = none)
    (hwrites : ∀ a, ¬ op.Writes a) : op.Quiet where
  inBounds op' i hop hi := by
    obtain rfl := Option.some.inj hop
    rw [hnone] at hi
    cases hi
  frame a _ _ := hwrites a

theorem inBounds_some {op : FbucOp} {i : UInt64} (hindex : op.notifIndex = some i)
    (hi : i < FBUC_MAX_NOTIF_PORTS) : InBounds (some op) := by
  intro op' i' hop hi'
  obtain rfl := Option.some.inj hop
  obtain rfl := Option.some.inj (hindex.symm.trans hi')
  exact hi

/-- The bytes of a port below 8 end where the table begins. -/
theorem offset_notif_ports {i : UInt64} (hi : i < FBUC_MAX_NOTIF_PORTS) (f : NotifPortField) :
    (Place.notif_ports i f).offset = 8 + 88 * i.toNat + f.offset
      ∧ (Place.notif_ports i f).offset + f.size ≤ 712 := by
  have hlt : i.toNat < 8 := UInt64.lt_iff_toNat_lt.mp hi
  have hfield := f.offset_size
  have hoffset : (Place.notif_ports i f).offset = 8 + 88 * i.toNat + f.offset :=
    Nat.mod_eq_of_lt (by omega)
  exact ⟨hoffset, by omega⟩

theorem quiet_load_notif_ports {i : UInt64} (hi : i < FBUC_MAX_NOTIF_PORTS) (f : NotifPortField) :
    (FbucOp.load (.notif_ports i f)).Quiet :=
  ⟨inBounds_some rfl hi, fun _ _ _ hwrites => hwrites⟩

theorem quiet_store_notif_ports {i : UInt64} (hi : i < FBUC_MAX_NOTIF_PORTS) (f : NotifPortField)
    (v : UInt64) : (FbucOp.store (.notif_ports i f) v).Quiet := by
  refine ⟨inBounds_some rfl hi, fun a ha _ hwrites => ?_⟩
  have hend := (offset_notif_ports hi f).2
  have hin : a < (Place.notif_ports i f).offset + f.size := hwrites.2
  omega

theorem quiet_setAsyncReference64 {i : UInt64} (hi : i < FBUC_MAX_NOTIF_PORTS)
    (port cb ref task : UInt64) :
    (FbucOp.IOUserClient_setAsyncReference64 (.notif_ports i .asnyc_ref64) port cb ref task).Quiet := by
  refine ⟨inBounds_some rfl hi, ?_⟩
  rintro a ha - ⟨j, hj, rfl⟩
  have hend := (offset_notif_ports hi .asnyc_ref64).2
  have hin : j < NotifPortField.asnyc_ref64.size := hj
  rw [Nat.mod_eq_of_lt (by omega)] at ha
  omega

theorem quiet_sendAsyncResult64 {i : UInt64} (hi : i < FBUC_MAX_NOTIF_PORTS) (res : UInt64)
    (args : List UInt64) :
    (FbucOp.IOUserClient_sendAsyncResult64 (.notif_ports i .asnyc_ref64) res args).Quiet :=
  ⟨inBounds_some rfl hi, fun _ _ _ hwrites => hwrites⟩

theorem quiet_store_task (v : UInt64) : (FbucOp.store .task v).Quiet := by
  refine ⟨fun op i hop hi => ?_, fun a ha _ hwrites => ?_⟩
  · obtain rfl := Option.some.inj hop
    cases hi
  · have hin : a < 0 + 8 := hwrites.2
    omega

end Frame

/-! ## The external methods -/

section Methods

variable {image : Image} {m : Mem}

/-- What a call establishes when it returns. -/
abbrev Returned (image : Image) : UInt64 → Mem → Prop := fun _ m => TableKept image m

theorem return_safe (hkept : TableKept image m) (v : UInt64) :
    Always env (Safe image) (Returned image) (pure v) m :=
  always_ret.mpr ⟨⟨fun _ _ hop => (nomatch hop), hkept⟩, hkept⟩

theorem cancel_safe (hkept : TableKept image m) :
    Always env (Safe image) (Returned image) cancel m :=
  (quiet_of_silent .cancel rfl fun _ h => h).safe hkept fun never => never.elim

theorem scalarOutputs_safe (vs : List UInt64) : ∀ (i : ℕ) {m : Mem}, TableKept image m →
    Always env (Safe image) (Returned image) (scalarOutputs i vs) m := by
  induction vs with
  | nil => exact fun i m hkept => return_safe hkept 0
  | cons v vs ih =>
      intro i m hkept
      rw [scalarOutputs, perform_bind]
      exact (quiet_of_silent (.scalarOutput i v) rfl fun _ h => h).safe hkept
        fun _ m' _ hkept' => ih (i + 1) hkept'

theorem enable_notifications_safe (hkept : TableKept image m) {args : IOExternalMethodArguments}
    (htype : args.scalarInput 2 < FBUC_MAX_NOTIF_PORTS) :
    Always env (Safe image) (Returned image) (fbuc_ext_meth_enable_notifications args) m := by
  refine (quiet_load_notif_ports htype .port).safe hkept fun port m₁ _ hkept₁ => ?_
  refine (quiet_of_silent (.load .task) rfl fun _ h => h).safe hkept₁
    fun task m₂ _ hkept₂ => ?_
  exact (quiet_setAsyncReference64 htype port _ _ task).safe hkept₂
    fun _ m₃ _ hkept₃ => return_safe hkept₃ 0

theorem change_frame_info_safe (hkept : TableKept image m) {args : IOExternalMethodArguments}
    (htype : args.scalarInput 0 < FBUC_MAX_NOTIF_PORTS) :
    Always env (Safe image) (Returned image) (fbuc_ext_meth_change_frame_info args) m :=
  (quiet_sendAsyncResult64 htype 0 _).safe hkept fun _ _ _ hkept' => return_safe hkept' 0

theorem get_gamma_table_safe (hkept : TableKept image m) (args : IOExternalMethodArguments) :
    Always env (Safe image) (Returned image) (fbuc_ext_meth_get_gamma_table args) m :=
  (quiet_of_silent (.structureOutput _) rfl fun _ h => h).safe hkept
    fun _ _ _ hkept' => return_safe hkept' 0

theorem supported_frame_info_safe (hkept : TableKept image m) (args : IOExternalMethodArguments) :
    Always env (Safe image) (Returned image) (fbuc_ext_meth_supported_frame_info args) m := by
  unfold fbuc_ext_meth_supported_frame_info
  cases frameInfoText (args.scalarInput 0) with
  | none => exact cancel_safe hkept
  | some text =>
      exact (quiet_of_silent (.structureOutput _) rfl fun _ h => h).safe hkept
        fun _ _ _ hkept' => scalarOutputs_safe _ 0 hkept'

/-- The scalar that a method takes for an index. -/
def Method.portIndex : Method → IOExternalMethodArguments → Option UInt64
  | .enable_notifications, args => some (args.scalarInput 2)
  | .change_frame_info, args => some (args.scalarInput 0)
  | _, _ => none

/-- **The external methods.** A method whose index, if it takes one, is below 8. -/
theorem Method.run_safe (f : Method) (hkept : TableKept image m)
    {args : IOExternalMethodArguments}
    (hindex : ∀ i, f.portIndex args = some i → i < FBUC_MAX_NOTIF_PORTS) :
    Always env (Safe image) (Returned image) (f.run args) m := by
  cases f with
  | enable_notifications => exact enable_notifications_safe hkept (hindex _ rfl)
  | change_frame_info => exact change_frame_info_safe hkept (hindex _ rfl)
  | get_gamma_table => exact get_gamma_table_safe hkept args
  | supported_frame_info => exact supported_frame_info_safe hkept args
  | _ => exact scalarOutputs_safe _ 0 hkept

/-- The index a method takes is the first it accesses. -/
theorem Method.index_inBounds (f : Method) {args : IOExternalMethodArguments} {i : UInt64}
    (hindex : f.portIndex args = some i)
    (h : Always env (Safe image) (Returned image) (f.run args) m) : i < FBUC_MAX_NOTIF_PORTS := by
  -- the access is the next operation, so the point at the start says it
  cases f with
  | enable_notifications =>
      obtain rfl := Option.some.inj hindex
      exact h.here.1 _ _ rfl rfl
  | change_frame_info =>
      obtain rfl := Option.some.inj hindex
      exact h.here.1 _ _ rfl rfl
  | _ => cases hindex

end Methods

/-! ## The dispatch -/

section Dispatch

variable {image : Image} {m : Mem}

/-- The comparison of the counts, with an entry that was installed. -/
def Install.Passes (e : Install) (args : IOExternalMethodArguments) : Prop :=
  (countPasses e.scic.toUInt64 args.scalarInputCount
    && countPasses e.stic.toUInt64 args.structureInputSize
    && countPasses e.scoc.toUInt64 args.scalarOutputCount
    && countPasses e.stoc.toUInt64 args.structureOutputSize) = true

/-- The counts that are loaded are those of the entry. -/
theorem Install.passes_value (e : Install) {args : IOExternalMethodArguments} :
    e.Passes args ↔
      (countPasses (e.value image .checkScalarInputCount) args.scalarInputCount
        && countPasses (e.value image .checkStructureInputSize) args.structureInputSize
        && countPasses (e.value image .checkScalarOutputCount) args.scalarOutputCount
        && countPasses (e.value image .checkStructureOutputSize) args.structureOutputSize) = true :=
  Iff.rfl

/-- The function that is loaded is the method of the entry. -/
theorem Install.callFunction_value (e : Install) {args : IOExternalMethodArguments} :
    callFunction image (e.value image .function) args = e.func.run args := by
  have hfound : image.methodAt (e.value image .function) = some e.func :=
    image.methodAt_address e.func
  unfold callFunction
  rw [hfound]

theorem quiet_load_external_methods (j : UInt64) (f : DispatchField) :
    (FbucOp.load (.fbuc_external_methods j f)).Quiet :=
  quiet_of_silent (.load (.fbuc_external_methods j f)) rfl fun _ h => h

/-- Loading a field of an installed entry. -/
theorem load_entry {j : UInt64} {e : Install} (hj : j < FBUC_MAX_EXT_FUNCS)
    (he : installOf j = some e) (hkept : TableKept image m) (f : DispatchField)
    {k : UInt64 → FbucProg UInt64} :
    Always env (Safe image) (Returned image)
        (Prog.call (FbucOp.load (.fbuc_external_methods j f)) k) m
      ↔ Always env (Safe image) (Returned image) (k (e.value image f)) m := by
  have hentry := hkept j hj
  unfold EntryKept at hentry
  rw [he] at hentry
  have hvalue : UInt64.ofNat (Words.load m (Place.fbuc_external_methods j f).offset f.size)
      = e.value image f := by rw [hentry f, UInt64.ofNat_toNat]
  constructor
  · exact fun h => h.2 _ m ⟨hvalue.symm, rfl⟩
  · -- a load has one answer and changes nothing
    refine fun hk => always_call.mpr ⟨⟨(quiet_load_external_methods j f).inBounds, hkept⟩, ?_⟩
    rintro v m' ⟨rfl, rfl⟩
    exact hvalue ▸ hk

/-- A selector without an entry is refused. -/
theorem externalMethod_null {selector : UInt32} {args : IOExternalMethodArguments}
    (hj : selector.toUInt64 < FBUC_MAX_EXT_FUNCS) (he : installOf selector.toUInt64 = none)
    (hkept : TableKept image m) :
    Always env (Safe image) (Returned image) (fbuc_externalMethod image selector args) m := by
  have hentry := hkept _ hj
  unfold EntryKept at hentry
  rw [he] at hentry
  unfold fbuc_externalMethod
  rw [if_neg (UInt64.not_le.mpr hj), perform_bind]
  refine always_call.mpr ⟨⟨(quiet_load_external_methods _ _).inBounds, hkept⟩, ?_⟩
  rintro v m' ⟨hv, rfl⟩
  have hzero : v = 0 := hv.trans (congrArg UInt64.ofNat hentry)
  rw [if_pos hzero]
  exact cancel_safe hkept

/-- A selector with an entry runs the method of the entry, if the counts pass. -/
theorem externalMethod_entry {selector : UInt32} {args : IOExternalMethodArguments} {e : Install}
    (hj : selector.toUInt64 < FBUC_MAX_EXT_FUNCS) (he : installOf selector.toUInt64 = some e)
    (hkept : TableKept image m) :
    Always env (Safe image) (Returned image) (fbuc_externalMethod image selector args) m
      ↔ (e.Passes args → Always env (Safe image) (Returned image) (e.func.run args) m) := by
  have hne : ¬ e.value image .function = 0 := image.ne_null e.func
  unfold fbuc_externalMethod IOUserClient_externalMethod
  rw [if_neg (UInt64.not_le.mpr hj), perform_bind, load_entry hj he hkept, if_neg hne]
  simp only [perform_bind]
  -- the four counts
  rw [load_entry hj he hkept, load_entry hj he hkept, load_entry hj he hkept,
    load_entry hj he hkept]
  by_cases hpasses : e.Passes args
  · rw [if_pos (e.passes_value.mp hpasses), load_entry hj he hkept, e.callFunction_value]
    exact ⟨fun h _ => h, fun h => h hpasses⟩
  · rw [if_neg (mt e.passes_value.mpr hpasses)]
    exact ⟨fun _ h => absurd h hpasses, fun _ => return_safe hkept _⟩

theorem countPasses_iff {check count : UInt32} (hany : check ≠ 0xffffffff) :
    countPasses check.toUInt64 count = true ↔ count = check := by
  have hnot : ¬ check.toUInt64 = 0xffffffff := fun h => hany (UInt32.toUInt64_inj.mp h)
  simp [countPasses, hnot, UInt32.toUInt64_inj, eq_comm]

theorem passes_iff {e : Install} {args : IOExternalMethodArguments} (hsc : e.scic ≠ 0xffffffff)
    (hst : e.stic ≠ 0xffffffff) (hso : e.scoc ≠ 0xffffffff) (hsto : e.stoc ≠ 0xffffffff) :
    e.Passes args ↔ args.HasCounts e.scic e.stic e.scoc e.stoc := by
  unfold Install.Passes IOExternalMethodArguments.HasCounts
  rw [Bool.and_eq_true, Bool.and_eq_true, Bool.and_eq_true, countPasses_iff hsc,
    countPasses_iff hst, countPasses_iff hso, countPasses_iff hsto, and_assoc, and_assoc]

theorem installOf_some {j : UInt64} {e : Install} (he : installOf j = some e) :
    e ∈ installs ∧ e.index = j := by
  have hfind : (installs.find? fun e => e.index = j) = some e := he
  refine ⟨List.mem_of_find?_eq_some hfind, ?_⟩
  simpa only [decide_eq_true_eq] using List.find?_some hfind

/-- The entries whose methods take an index are 72 and 73. -/
theorem installs_ports : ∀ e ∈ installs,
    (e.func ≠ .enable_notifications ∧ e.func ≠ .change_frame_info ∧ e.index ≠ 72 ∧ e.index ≠ 73)
      ∨ e = ⟨.enable_notifications, 72, 4, 0, 0, 0⟩
      ∨ e = ⟨.change_frame_info, 73, 2, 0, 0, 0⟩ := by
  decide

theorem Method.portIndex_none {f : Method} (hen : f ≠ .enable_notifications)
    (hch : f ≠ .change_frame_info) (args : IOExternalMethodArguments) :
    f.portIndex args = none := by
  cases f with
  | enable_notifications => exact absurd rfl hen
  | change_frame_info => exact absurd rfl hch
  | _ => rfl

/-- A method is safe if and only if its index is below 8. -/
theorem Method.run_safe_iff (f : Method) (hkept : TableKept image m)
    {args : IOExternalMethodArguments} :
    Always env (Safe image) (Returned image) (f.run args) m
      ↔ ∀ i, f.portIndex args = some i → i < FBUC_MAX_NOTIF_PORTS :=
  ⟨fun h _ hindex => f.index_inBounds hindex h, fun h => f.run_safe hkept h⟩

/-- The condition on an entry is the condition on the call. -/
theorem bounded_entry {selector : UInt32} {args : IOExternalMethodArguments} {e : Install}
    (he : installOf selector.toUInt64 = some e) :
    (e.Passes args → ∀ i, e.func.portIndex args = some i → i < FBUC_MAX_NOTIF_PORTS)
      ↔ (VirtualCall.fbuc_externalMethod selector args).Bounded := by
  obtain ⟨hmem, hindex⟩ := installOf_some he
  have hselector : ∀ s : UInt32, selector = s ↔ e.index = s.toUInt64 := by
    intro s
    rw [hindex, UInt32.toUInt64_inj]
  rw [VirtualCall.Bounded, hselector 72, hselector 73]
  rcases installs_ports e hmem with ⟨hen, hch, h72, h73⟩ | rfl | rfl
  · -- an entry whose method takes no index
    refine ⟨fun _ => ⟨fun h => absurd h h72, fun h => absurd h h73⟩, fun _ _ i hi => ?_⟩
    rw [Method.portIndex_none hen hch] at hi
    cases hi
  · rw [passes_iff (by decide) (by decide) (by decide) (by decide)]
    constructor
    · exact fun h => ⟨fun _ hcounts => h hcounts _ rfl, fun h73 => absurd h73 (by decide)⟩
    · rintro ⟨h, -⟩ hcounts i hi
      obtain rfl := Option.some.inj hi
      exact h rfl hcounts
  · rw [passes_iff (by decide) (by decide) (by decide) (by decide)]
    constructor
    · exact fun h => ⟨fun h72 => absurd h72 (by decide), fun _ hcounts => h hcounts _ rfl⟩
    · rintro ⟨-, h⟩ hcounts i hi
      obtain rfl := Option.some.inj hi
      exact h rfl hcounts

theorem installOf_ports : installOf 72 ≠ none ∧ installOf 73 ≠ none := by decide

/-- Selectors without an entry are bounded: those of the two methods have one. -/
theorem bounded_of_none {selector : UInt32} (args : IOExternalMethodArguments)
    (hnone : ¬ selector.toUInt64 < FBUC_MAX_EXT_FUNCS ∨ installOf selector.toUInt64 = none) :
    (VirtualCall.fbuc_externalMethod selector args).Bounded := by
  constructor
  · rintro rfl
    rcases hnone with h | h
    · exact absurd (by decide) h
    · exact absurd h installOf_ports.1
  · rintro rfl
    rcases hnone with h | h
    · exact absurd (by decide) h
    · exact absurd h installOf_ports.2

theorem externalMethod_safe_iff (selector : UInt32) (args : IOExternalMethodArguments)
    (hkept : TableKept image m) :
    Always env (Safe image) (Returned image) (fbuc_externalMethod image selector args) m
      ↔ (VirtualCall.fbuc_externalMethod selector args).Bounded := by
  by_cases hj : selector.toUInt64 < FBUC_MAX_EXT_FUNCS
  · rcases he : installOf selector.toUInt64 with - | e
    · exact iff_of_true (externalMethod_null hj he hkept) (bounded_of_none args (Or.inr he))
    · rw [externalMethod_entry hj he hkept, e.func.run_safe_iff hkept]
      exact bounded_entry he
  · -- a selector behind the table
    have hcancel : fbuc_externalMethod image selector args = cancel :=
      if_pos (UInt64.not_lt.mp hj)
    rw [hcancel]
    exact iff_of_true (cancel_safe hkept) (bounded_of_none args (Or.inl hj))

end Dispatch

/-! ## `fbuc_start` -/

section Start

variable {image : Image} {m : Mem}

/-- The installations, and the call of IOKit after them. -/
def startFrom (image : Image) : List Install → FbucProg UInt64
  | [] => perform FbucOp.IOService_start
  | e :: es => do
      fbuc_install_external_method image e.func e.index e.scic e.stic e.scoc e.stoc
      startFrom image es

theorem fbuc_start_eq : fbuc_start image = startFrom image installs := rfl

theorem value_lt (e : Install) (f : DispatchField) :
    (e.value image f).toNat % 256 ^ f.size = (e.value image f).toNat := by
  have hword : ∀ c : UInt32, c.toUInt64.toNat < 256 ^ 4 := fun c => c.toNat_lt
  cases f with
  | function => exact Nat.mod_eq_of_lt (UInt64.toNat_lt _)
  | _ => exact Nat.mod_eq_of_lt (hword _)

/-- The store of one field. -/
def storeField (image : Image) (e : Install) (f : DispatchField) (m : Mem) : Mem :=
  Words.store m (Place.fbuc_external_methods e.index f).offset f.size (e.value image f).toNat

/-- The five stores of an installation. -/
def installed (image : Image) (e : Install) (m : Mem) : Mem :=
  storeField image e .checkStructureOutputSize <| storeField image e .checkScalarOutputCount <|
    storeField image e .checkStructureInputSize <| storeField image e .checkScalarInputCount <|
    storeField image e .function m

theorem installed_outside {e : Install} (hindex : e.index < FBUC_MAX_EXT_FUNCS) {a : ℕ}
    (ha : a < 712 + 24 * e.index.toNat ∨ 712 + 24 * e.index.toNat + 24 ≤ a) :
    installed image e m a = m a := by
  have hfield : ∀ (f : DispatchField) (m : Mem), storeField image e f m a = m a := by
    intro f m
    have hsize := f.offset_size
    have hoffset := offset_external_methods hindex f
    exact Words.store_outside (by omega)
  simp only [installed, hfield]

/-- Each field of the entry is what was stored. -/
theorem installed_entry {e : Install} (hindex : e.index < FBUC_MAX_EXT_FUNCS) (f : DispatchField) :
    Words.load (installed image e m) (Place.fbuc_external_methods e.index f).offset f.size
      = (e.value image f).toNat := by
  have hself : ∀ m : Mem, Words.load (storeField image e f m)
      (Place.fbuc_external_methods e.index f).offset f.size = (e.value image f).toNat := by
    intro m
    rw [storeField, Words.load_store_self, value_lt]
  -- the stores behind it go to other fields
  have hother : ∀ (g : DispatchField) (m : Mem),
      f.offset + f.size ≤ g.offset ∨ g.offset + g.size ≤ f.offset →
      Words.load (storeField image e g m) (Place.fbuc_external_methods e.index f).offset f.size
        = Words.load m (Place.fbuc_external_methods e.index f).offset f.size := by
    intro g m hdisjoint
    have hf := offset_external_methods hindex f
    have hg := offset_external_methods hindex g
    exact Words.load_store_of_disjoint (by omega)
  unfold installed
  cases f with
  | function =>
      rw [hother _ _ (by decide), hother _ _ (by decide), hother _ _ (by decide),
        hother _ _ (by decide), hself]
  | checkScalarInputCount =>
      rw [hother _ _ (by decide), hother _ _ (by decide), hother _ _ (by decide), hself]
  | checkStructureInputSize => rw [hother _ _ (by decide), hother _ _ (by decide), hself]
  | checkScalarOutputCount => rw [hother _ _ (by decide), hself]
  | checkStructureOutputSize => rw [hself]

/-- An installation settles its own entry, and leaves the others. -/
theorem installed_kept {e : Install} (he : installOf e.index = some e)
    (hindex : e.index < FBUC_MAX_EXT_FUNCS) {j : UInt64} (hj : j < FBUC_MAX_EXT_FUNCS)
    (h : e.index ≠ j → EntryKept image m j) : EntryKept image (installed image e m) j := by
  by_cases hsame : e.index = j
  · subst hsame
    unfold EntryKept
    rw [he]
    exact installed_entry hindex
  · have hapart : e.index.toNat ≠ j.toNat := fun heq => hsame (UInt64.toNat_inj.mp heq)
    have hload : ∀ f : DispatchField,
        Words.load (installed image e m) (Place.fbuc_external_methods j f).offset f.size
          = Words.load m (Place.fbuc_external_methods j f).offset f.size := by
      intro f
      have hoffset := offset_external_methods hj f
      have hsize := f.offset_size
      exact Words.load_congr f.size _ fun b hb hn => installed_outside hindex (by omega)
    have hentry := h hsame
    unfold EntryKept at hentry ⊢
    split
    · rename_i e' he'
      rw [he'] at hentry
      exact fun f => (hload f).trans (hentry f)
    · rename_i he'
      rw [he'] at hentry
      exact (hload .function).trans hentry

theorem install_always {e : Install} (hindex : e.index < FBUC_MAX_EXT_FUNCS)
    {I : Option FbucOp → Mem → Prop} {Q : Unit → Mem → Prop} (hI : ∀ o m, I o m)
    (hQ : Q () (installed image e m)) :
    Always env I Q
      (fbuc_install_external_method image e.func e.index e.scic e.stic e.scoc e.stoc) m := by
  unfold fbuc_install_external_method
  rw [if_neg (UInt64.not_le.mpr hindex)]
  refine always_call.mpr ⟨hI _ _, fun _ m₁ h₁ => ?_⟩
  refine always_call.mpr ⟨hI _ _, fun _ m₂ h₂ => ?_⟩
  refine always_call.mpr ⟨hI _ _, fun _ m₃ h₃ => ?_⟩
  refine always_call.mpr ⟨hI _ _, fun _ m₄ h₄ => ?_⟩
  refine always_call.mpr ⟨hI _ _, fun _ m₅ h₅ => ?_⟩
  have hall : m₅ = installed image e m := by
    rw [h₅, h₄, h₃, h₂, h₁]
    rfl
  exact always_ret.mpr ⟨hI _ _, hall ▸ hQ⟩

/-- **The installations.** Of a set `P` of entries, when those that are still to be installed
are the only ones that are not settled, they all are at the end. -/
theorem startFrom_table (P : UInt64 → Prop) (es : List Install)
    (hes : ∀ e ∈ es, installOf e.index = some e ∧ e.index < FBUC_MAX_EXT_FUNCS) :
    ∀ m : Mem,
      (∀ j, j < FBUC_MAX_EXT_FUNCS → P j → (∀ e ∈ es, e.index ≠ j) → EntryKept image m j) →
      Always env (fun _ _ => True)
        (fun _ m => ∀ j, j < FBUC_MAX_EXT_FUNCS → P j → EntryKept image m j)
        (startFrom image es) m := by
  induction es with
  | nil =>
      intro m h
      refine always_call.mpr ⟨trivial, fun _ m' hm' => ?_⟩
      obtain rfl : m' = m := hm'
      exact always_ret.mpr ⟨trivial, fun j hj hP => h j hj hP fun e he => (nomatch he)⟩
  | cons e es ih =>
      intro m h
      obtain ⟨he, hindex⟩ := hes e (List.mem_cons_self ..)
      refine always_bind _ _ m (install_always hindex (fun _ _ => trivial) ?_)
      refine ih (fun e' he' => hes e' (List.mem_cons_of_mem _ he')) _ fun j hj hP hrest => ?_
      -- settled here, settled before, or still to come
      refine installed_kept he hindex hj fun hother => h j hj hP fun e' he' => ?_
      rcases List.mem_cons.mp he' with rfl | hin
      · exact hother
      · exact hrest e' hin

theorem installs_settled :
    ∀ e ∈ installs, installOf e.index = some e ∧ e.index < FBUC_MAX_EXT_FUNCS := by
  decide

theorem installOf_none {j : UInt64} (h : ∀ e ∈ installs, e.index ≠ j) : installOf j = none := by
  refine List.find?_eq_none.mpr fun e he => ?_
  simpa only [decide_eq_true_eq] using h e he

/-- The entries that are installed do not depend on the object. -/
theorem start_entries (m : Mem) : Always env (fun _ _ => True)
    (fun _ m => ∀ j, j < FBUC_MAX_EXT_FUNCS → installOf j ≠ none → EntryKept image m j)
    (fbuc_start image) m := by
  rw [fbuc_start_eq]
  refine startFrom_table (installOf · ≠ none) installs installs_settled m fun j _ hsome hnone => ?_
  exact absurd (installOf_none hnone) hsome

theorem start_table (halloc : Allocated m) :
    Always env (fun _ _ => True) (Returned image) (fbuc_start image) m := by
  rw [fbuc_start_eq]
  refine (startFrom_table (fun _ => True) installs installs_settled m fun j hj _ hnone => ?_).mono
    (fun _ _ h => h) fun _ _ _ h j hj => h j hj trivial
  -- what is not installed is null because it was allocated so
  have hnoEntry := installOf_none hnone
  have hlt : j.toNat < 0x60 := UInt64.lt_iff_toNat_lt.mp hj
  have hoffset := offset_external_methods hj .function
  have hzero : DispatchField.function.offset = 0 := rfl
  unfold EntryKept
  rw [hnoEntry]
  refine Words.load_zero 8 _ fun b hb hn => halloc b (by omega) ?_
  unfold sizeofMembers
  omega

/-- On an object that has been started, each store of `fbuc_start` changes nothing. -/
theorem storeField_kept (hkept : TableKept image m) {e : Install}
    (he : installOf e.index = some e) (hindex : e.index < FBUC_MAX_EXT_FUNCS) (f : DispatchField) :
    storeField image e f m = m := by
  have hentry := hkept e.index hindex
  unfold EntryKept at hentry
  rw [he] at hentry
  rw [storeField, ← hentry f, Words.store_load]

theorem install_safe (hkept : TableKept image m) {e : Install} (he : installOf e.index = some e)
    (hindex : e.index < FBUC_MAX_EXT_FUNCS) :
    Always env (Safe image) (fun _ m => TableKept image m)
      (fbuc_install_external_method image e.func e.index e.scic e.stic e.scoc e.stoc) m := by
  -- the operations write the table, so they are not quiet, but they do not change it
  have hstore : ∀ {α : Type} {Q : α → Mem → Prop} {k : Unit → FbucProg α} (f : DispatchField),
      Always env (Safe image) Q (k ()) m →
      Always env (Safe image) Q
        (Prog.call (FbucOp.store (.fbuc_external_methods e.index f) (e.value image f)) k) m := by
    intro α Q k f hk
    refine always_call.mpr ⟨⟨fun op i hop hi => ?_, hkept⟩, fun _ m' hm' => ?_⟩
    · obtain rfl := Option.some.inj hop
      cases hi
    · obtain rfl : m' = m := (hm' : m' = _).trans (storeField_kept hkept he hindex f)
      exact hk
  unfold fbuc_install_external_method
  rw [if_neg (UInt64.not_le.mpr hindex)]
  refine hstore .function (hstore .checkScalarInputCount (hstore .checkStructureInputSize
    (hstore .checkScalarOutputCount (hstore .checkStructureOutputSize ?_))))
  exact always_ret.mpr ⟨⟨fun _ _ hop => (nomatch hop), hkept⟩, hkept⟩

theorem startFrom_safe (es : List Install)
    (hes : ∀ e ∈ es, installOf e.index = some e ∧ e.index < FBUC_MAX_EXT_FUNCS) :
    ∀ m : Mem, TableKept image m →
      Always env (Safe image) (Returned image) (startFrom image es) m := by
  induction es with
  | nil =>
      intro m hkept
      exact (quiet_of_silent .IOService_start rfl fun _ h => h).safe hkept
        fun v _ _ hkept' => return_safe hkept' v
  | cons e es ih =>
      intro m hkept
      obtain ⟨he, hindex⟩ := hes e (List.mem_cons_self ..)
      refine always_bind _ _ m ((install_safe hkept he hindex).mono (fun _ _ h => h) ?_)
      exact fun _ m' _ hkept' => ih (fun e' he' => hes e' (List.mem_cons_of_mem _ he')) m' hkept'

theorem start_safe (hkept : TableKept image m) :
    Always env (Safe image) (Returned image) (fbuc_start image) m := by
  rw [fbuc_start_eq]
  exact startFrom_safe installs installs_settled m hkept

end Start

/-! ## Runs -/

section Runs

variable {image : Image} {m : Mem}

theorem registerNotificationPort_safe (hkept : TableKept image m) (port type ref : UInt64) :
    Always env (Safe image) (Returned image) (fbuc_registerNotificationPort port type ref) m := by
  unfold fbuc_registerNotificationPort
  by_cases htype : type < FBUC_MAX_NOTIF_PORTS
  · rw [if_neg (UInt64.not_le.mpr htype)]
    refine (quiet_store_notif_ports htype .type type).safe hkept fun _ m₁ _ hkept₁ => ?_
    refine (quiet_store_notif_ports htype .port port).safe hkept₁ fun _ m₂ _ hkept₂ => ?_
    exact (quiet_store_notif_ports htype .ref ref).safe hkept₂
      fun _ m₃ _ hkept₃ => return_safe hkept₃ 0
  · rw [if_pos (UInt64.not_lt.mp htype)]
    exact cancel_safe hkept

theorem initWithTask_safe (hkept : TableKept image m) (task sid type : UInt64) :
    Always env (Safe image) (Returned image) (fbuc_initWithTask task sid type) m := by
  refine (quiet_store_task task).safe hkept fun _ m₁ _ hkept₁ => ?_
  exact (quiet_of_silent (.IOUserClient_initWithTask task sid type) rfl fun _ h => h).safe hkept₁
    fun v _ _ hkept₂ => return_safe hkept₂ v

/-- **One virtual call.** On an object that has been started it stays inside
`notif_ports` and keeps the table, whatever is around it, if and only if it is bounded. -/
theorem VirtualCall.run_safe_iff (c : VirtualCall) (hkept : TableKept image m) :
    Always env (Safe image) (Returned image) (c.run image) m ↔ c.Bounded := by
  cases c with
  | fbuc_start => exact iff_of_true (start_safe hkept) trivial
  | fbuc_initWithTask task sid type =>
      exact iff_of_true (initWithTask_safe hkept task sid type) trivial
  | fbuc_registerNotificationPort port type ref =>
      exact iff_of_true (registerNotificationPort_safe hkept port type ref) trivial
  | fbuc_externalMethod selector args => exact externalMethod_safe_iff selector args hkept

/-- What holds where a label is reached. -/
def LabelKept (image : Image) : Label → Mem → Prop
  | .allocated, m => Allocated m
  | .started, m => TableKept image m

/-- The first call of `fbuc_start`. -/
theorem allocated_kept (halloc : Allocated m) {l : Label} {p : FbucProg Label}
    (hl : code image l = some p) (hallocated : l = .allocated) :
    Always boundedEnv (fun _ _ => True) (LabelKept image) p m := by
  subst hallocated
  obtain rfl := Option.some.inj hl
  have hrun : Always boundedEnv (fun _ _ => True) (Returned image) (fbuc_start image) m :=
    (start_table halloc).restrict fun _ _ _ _ h => h.1
  exact always_bind _ _ m (hrun.mono (fun _ _ h => h) fun _ _ _ hkept => ⟨trivial, hkept⟩)

/-- A bounded virtual call, whichever comes next. -/
theorem started_safe (hkept : TableKept image m) {l : Label} {p : FbucProg Label}
    (hl : code image l = some p) (hstarted : l = .started) :
    Always boundedEnv (Safe image) (fun l m => l = .started ∧ TableKept image m) p m := by
  subst hstarted
  obtain rfl := Option.some.inj hl
  have hquiet : FbucOp.nextCall.Quiet := quiet_of_silent .nextCall rfl fun _ h => h
  refine always_call.mpr ⟨⟨hquiet.inBounds, hkept⟩, ?_⟩
  rintro c m' ⟨hm', hbounded⟩
  obtain rfl : m' = m := hm'
  have hrun : Always boundedEnv (Safe image) (Returned image) (c.run image) m' :=
    ((c.run_safe_iff hkept).mpr hbounded).restrict fun _ _ _ _ h => h.1
  refine always_bind (c.run image) (fun _ => pure Label.started) m' ?_
  exact hrun.mono (fun _ _ h => h) fun _ _ hsafe hkept' => ⟨hsafe, rfl, hkept'⟩

/-- Wherever the object has been started, the table is in place. -/
theorem kept_of_started {m₀ : Mem} (halloc : Allocated m₀)
    (h : Reach (code image) boundedEnv .allocated m₀ (ret .started) m) : TableKept image m := by
  have hall : Always boundedEnv (fun _ _ => True) (LabelKept image) (ret Label.started) m := by
    refine Reach.always ⟨trivial, halloc⟩ (fun l q s hl hs => ?_) h
    cases l with
    | allocated => exact allocated_kept hs hl rfl
    | started =>
        refine (started_safe hs hl rfl).mono (fun _ _ _ => trivial) ?_
        rintro l s - ⟨rfl, hkept⟩
        exact hkept
  exact hall.2

/-- **The notification table is guarded** in every run of bounded calls. From where
`fbuc_start` has returned, every access stays inside `notif_ports`, and the dispatch
table is what `fbuc_start` made it. -/
theorem notif_ports_guarded {m₀ m₁ : Mem} {p : FbucProg Label} (halloc : Allocated m₀)
    (hstart : Reach (code image) boundedEnv .allocated m₀ (ret .started) m₁)
    (h : Reach (code image) boundedEnv .started m₁ p m) : InBounds p.next ∧ TableKept image m := by
  have hkept := kept_of_started halloc hstart
  have hall : Always boundedEnv (Safe image) (fun l m => l = .started ∧ TableKept image m) p m := by
    refine Reach.always ⟨⟨fun _ _ hop => (nomatch hop), hkept⟩, rfl, hkept⟩ ?_ h
    rintro l q s hl ⟨hstarted, hs⟩
    exact started_safe hs hl hstarted
  exact hall.here

end Runs

/-! ## Two runs -/

section Example

/-- Functions four bytes apart. -/
def exampleAddress (f : Method) : UInt64 := UInt64.ofNat (0x1000 + 4 * Method.all.idxOf f)

def exampleImage : Image where
  address := exampleAddress
  injective := by
    have h : ∀ f ∈ Method.all, ∀ g ∈ Method.all, exampleAddress f = exampleAddress g → f = g := by
      decide +kernel
    exact fun f g hfg => h f f.mem_all g g.mem_all hfg
  ne_null f := by cases f <;> decide

/-- Around an object that is called with `c`: IOKit succeeds, and makes an async reference
of a port, a callback and a reference. -/
def serve (c : VirtualCall) : Handler FbucOp FbucRes Mem
  | .nextCall, m => some (c, m)
  | .load p, m => some (UInt64.ofNat (Words.load m p.offset p.size), m)
  | .store p v, m => some ((), Words.store m p.offset p.size v.toNat)
  | .IOUserClient_setAsyncReference64 aref port cb ref _, m =>
      if aref.size = 64 ∧ aref.offset + 64 ≤ 2 ^ 64 then
        some ((), Words.store (Words.store (Words.store m aref.offset 8 port.toNat)
          (aref.offset + 8) 8 cb.toNat) (aref.offset + 16) 8 ref.toNat)
      else none
  | .IOUserClient_sendAsyncResult64 _ _ _, m => some ((), m)
  | .IOService_start, m => some (1, m)
  | .IOUserClient_initWithTask _ _ _, m => some (1, m)
  | .scalarOutput _ _, m => some ((), m)
  | .structureOutput _, m => some ((), m)
  | .unknownFunction _, _ => none
  | .cancel, _ => none

theorem serve_env {c : VirtualCall} (op : FbucOp) (m : Mem) (r : FbucRes op) (m' : Mem)
    (h : serve c op m = some (r, m')) : env op m r m' := by
  cases op with
  | load p =>
      obtain ⟨rfl, rfl⟩ := Prod.mk.inj (Option.some.inj h)
      exact ⟨rfl, rfl⟩
  | store p v => exact (Prod.mk.inj (Option.some.inj h)).2.symm
  | IOUserClient_setAsyncReference64 aref port cb ref task =>
      rw [serve] at h
      obtain ⟨⟨hsize, hend⟩, heq⟩ := Option.ite_none_right_eq_some.mp h
      obtain ⟨-, rfl⟩ := Prod.mk.inj (Option.some.inj heq)
      intro a ha
      -- the three words lie within the eight
      have hout : a < aref.offset ∨ aref.offset + 64 ≤ a := by
        by_contra hin
        exact ha ⟨a - aref.offset, by omega, by rw [Nat.mod_eq_of_lt] <;> omega⟩
      rw [Words.store_outside (by omega), Words.store_outside (by omega),
        Words.store_outside (by omega)]
  | unknownFunction address => cases h
  | cancel => cases h
  | _ => exact (Prod.mk.inj (Option.some.inj h)).2.symm

/-- What an object does with its calls, concretely. -/
theorem drive_started {image : Image} {c : VirtualCall} {m m' : Mem} {v : UInt64}
    (hrun : exec (serve c) (c.run image) m = some (v, m')) :
    drive (code image) (serve c) 1 .started m = some (.started, m') := by
  have hpiece : exec (serve c)
      (do
        let c ← perform FbucOp.nextCall
        let _ ← c.run image
        pure Label.started) m = some (.started, m') := by
    rw [perform_bind, exec_call_some (rfl : serve c .nextCall m = some (c, m)),
      exec_bind_some hrun]
    rfl
  show (exec (serve c) _ m).bind _ = _
  rw [hpiece]
  rfl

theorem serve_load {image : Image} {c : VirtualCall} {m : Mem} {j : UInt64} {e : Install}
    (hj : j < FBUC_MAX_EXT_FUNCS) (he : installOf j = some e) (hkept : TableKept image m)
    (f : DispatchField) :
    serve c (.load (.fbuc_external_methods j f)) m = some (e.value image f, m) := by
  have hentry := hkept j hj
  unfold EntryKept at hentry
  rw [he] at hentry
  show some (UInt64.ofNat (Words.load m _ f.size), m) = _
  rw [hentry f, UInt64.ofNat_toNat]

/-- The dispatch, concretely. -/
theorem exec_externalMethod {image : Image} {c : VirtualCall} {m : Mem} {selector : UInt32}
    {args : IOExternalMethodArguments} {e : Install} (hj : selector.toUInt64 < FBUC_MAX_EXT_FUNCS)
    (he : installOf selector.toUInt64 = some e) (hkept : TableKept image m)
    (hpasses : e.Passes args) :
    exec (serve c) (fbuc_externalMethod image selector args) m
      = exec (serve c) (e.func.run args) m := by
  have hload := serve_load (c := c) hj he hkept
  have hne : ¬ e.value image .function = 0 := image.ne_null e.func
  unfold fbuc_externalMethod IOUserClient_externalMethod
  rw [if_neg (UInt64.not_le.mpr hj), perform_bind, exec_call_some (hload _), if_neg hne]
  simp only [perform_bind]
  rw [exec_call_some (hload _), exec_call_some (hload _), exec_call_some (hload _),
    exec_call_some (hload _), if_pos (e.passes_value.mp hpasses), exec_call_some (hload _),
    e.callFunction_value]

/-- Arguments for `enable_notifications`, with a reference that is easy to recognise. -/
def enableArgs (type : UInt64) : IOExternalMethodArguments where
  scalarInput i := if i = 1 then 0x4141414141414141 else if i = 2 then type else 0
  scalarInputCount := 4
  structureInputSize := 0
  scalarOutputCount := 0
  structureOutputSize := 0

def enableCall (type : UInt64) : VirtualCall := .fbuc_externalMethod 72 (enableArgs type)

/-- The object after `fbuc_start`. -/
def startedMem : Mem := installs.foldl (fun m e => installed exampleImage e m) fun _ => 0

theorem exec_startFrom {image : Image} {c : VirtualCall} (es : List Install)
    (hes : ∀ e ∈ es, installOf e.index = some e ∧ e.index < FBUC_MAX_EXT_FUNCS) :
    ∀ m : Mem, exec (serve c) (startFrom image es) m
      = some (1, es.foldl (fun m e => installed image e m) m) := by
  induction es with
  | nil => exact fun _ => rfl
  | cons e es ih =>
      intro m
      obtain ⟨-, hindex⟩ := hes e (List.mem_cons_self ..)
      have hinstall : exec (serve c)
          (fbuc_install_external_method image e.func e.index e.scic e.stic e.scoc e.stoc) m
            = some ((), installed image e m) := by
        unfold fbuc_install_external_method
        rw [if_neg (UInt64.not_le.mpr hindex)]
        rfl
      rw [startFrom, exec_bind_some hinstall]
      exact ih (fun e' he' => hes e' (List.mem_cons_of_mem _ he')) _

theorem drive_allocated (c : VirtualCall) :
    drive (code exampleImage) (serve c) 1 .allocated (fun _ => 0) = some (.started, startedMem) := by
  have hstart : exec (serve c) (fbuc_start exampleImage) (fun _ => 0) = some (1, startedMem) :=
    exec_startFrom installs installs_settled _
  show (exec (serve c) (fbuc_start exampleImage >>= fun _ => pure Label.started) _).bind _ = _
  rw [exec_bind_some hstart]
  rfl

theorem serve_boundedEnv {c : VirtualCall} (hc : c.Bounded) (op : FbucOp) (m : Mem) (r : FbucRes op)
    (m' : Mem) (h : serve c op m = some (r, m')) : boundedEnv op m r m' := by
  refine ⟨serve_env op m r m' h, ?_⟩
  cases op with
  | nextCall =>
      obtain ⟨rfl, -⟩ := Prod.mk.inj (Option.some.inj h)
      exact hc
  | _ => trivial

theorem startedMem_kept : TableKept exampleImage startedMem :=
  kept_of_started (fun _ _ _ => rfl)
    (Reach.drive (serve_boundedEnv (c := .fbuc_start) trivial) 1 Reach.start (drive_allocated _))

/-- The method, concretely: the last word written is the caller's reference. -/
theorem exec_enable_notifications {c : VirtualCall} {m : Mem} (args : IOExternalMethodArguments)
    (hfits : (Place.notif_ports (args.scalarInput 2) .asnyc_ref64).offset + 64 ≤ 2 ^ 64) :
    ∃ m', exec (serve c) (fbuc_ext_meth_enable_notifications args) m
      = some (0, Words.store m' ((Place.notif_ports (args.scalarInput 2) .asnyc_ref64).offset + 16) 8
          (args.scalarInput 1).toNat) := by
  have hwrite : ∀ port task, serve c (.IOUserClient_setAsyncReference64
      (.notif_ports (args.scalarInput 2) .asnyc_ref64) port (args.scalarInput 0)
      (args.scalarInput 1) task) m = some ((), _) := fun port task => if_pos ⟨rfl, hfits⟩
  exact ⟨_, (exec_call_some rfl).trans ((exec_call_some rfl).trans (exec_call_some (hwrite _ _)))⟩

/-- A call of `enable_notifications` returns, with that write as its last. -/
theorem drive_enableCall (type : UInt64)
    (hfits : (Place.notif_ports type .asnyc_ref64).offset + 64 ≤ 2 ^ 64) :
    ∃ m, drive (code exampleImage) (serve (enableCall type)) 1 .started startedMem
      = some (.started, Words.store m ((Place.notif_ports type .asnyc_ref64).offset + 16) 8
          0x4141414141414141) := by
  obtain ⟨m, hrun⟩ := exec_enable_notifications (c := enableCall type) (m := startedMem)
    (enableArgs type) hfits
  refine ⟨m, drive_started (v := 0) ?_⟩
  show exec _ (fbuc_externalMethod exampleImage 72 (enableArgs type)) startedMem = _
  rw [exec_externalMethod (e := ⟨.enable_notifications, 72, 4, 0, 0, 0⟩) (by decide) rfl
    startedMem_kept
    ((passes_iff (by decide) (by decide) (by decide) (by decide)).mpr ⟨rfl, rfl, rfl, rfl⟩)]
  exact hrun

/-- With index 3, the table is in place after the call. -/
theorem notif_ports_guarded_three : ∃ m,
    drive (code exampleImage) (serve (enableCall 3)) 1 .started startedMem = some (.started, m)
      ∧ TableKept exampleImage m := by
  obtain ⟨m, hrun⟩ := drive_enableCall 3 (by decide)
  have hbounded : (enableCall 3).Bounded := ⟨fun _ _ => by decide, fun h => absurd h (by decide)⟩
  have hstart := Reach.drive (serve_boundedEnv hbounded) 1 Reach.start (drive_allocated _)
  exact ⟨_, hrun, (notif_ports_guarded (fun _ _ _ => rfl) hstart
    (Reach.drive (serve_boundedEnv hbounded) 1 Reach.start hrun)).2⟩

/-- With index 10, the caller's reference is the function of entry 9, which has none. -/
theorem notif_ports_escape :
    (∃ m, Reach (code exampleImage) env .allocated (fun _ => 0) (ret .started) startedMem
      ∧ Reach (code exampleImage) env .started startedMem (ret .started) m
      ∧ Words.load m (Place.fbuc_external_methods 9 .function).offset 8 = 0x4141414141414141)
    ∧ ¬ ∀ m₀ m₁ m p, Allocated m₀ →
        Reach (code exampleImage) env .allocated m₀ (ret .started) m₁ →
        Reach (code exampleImage) env .started m₁ p m →
        InBounds p.next ∧ TableKept exampleImage m := by
  obtain ⟨m, hrun⟩ := drive_enableCall 10 (by decide)
  have hstart := Reach.drive serve_env 1 Reach.start (drive_allocated (enableCall 10))
  have hcall := Reach.drive serve_env 1 Reach.start hrun
  -- the third word of port 10 is at the same offset as the function of entry 9
  have hentry : Words.load (Words.store m ((Place.notif_ports 10 .asnyc_ref64).offset + 16) 8
      0x4141414141414141) (Place.fbuc_external_methods 9 .function).offset 8
        = 0x4141414141414141 := Words.load_store_self 8 _ _
  refine ⟨⟨_, hstart, hcall, hentry⟩, fun hall => ?_⟩
  have hkept := (hall _ _ _ _ (fun _ _ _ => rfl) hstart hcall).2 9 (by decide)
  have hnull : Words.load _ (Place.fbuc_external_methods 9 .function).offset 8 = 0 := hkept
  omega

end Example

end XnuQemuTools.Fbuc

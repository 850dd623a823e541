/-
What the framebuffer methods do with their arguments, and what the table declares.

A method gets an argument block and finds its inputs and outputs there itself, while the
comparison of the counts is made before, with an entry of the table. The two are kept in
step by hand. Here the looks into the block are calls too (`Access`), so that they can be
seen: `Method.body` is each method once more, with its reads, and supplied with a block it
is the method of `Fbuc` (`Method.body_supply`); `externalMethod` is the dispatch before it.

What a method needs of the block is `Method.inputs`, `Method.outputs` and `Method.fills`,
and `Method.body_within` is that it keeps to them, the table left aside. That the rows of
the table say the same is a finite check, `installs_declared`.
-/
import XnuQemuTools.FbucPorts

set_option autoImplicit false

namespace XnuQemuTools.Fbuc

open Calls Calls.Prog Memory

/-! ## Accesses -/

/-- A look into the argument block, or an operation of the user client. -/
inductive Access where
  | scalarInput (i : ℕ)
  | scalarInputCount
  | structureInputSize
  | scalarOutputCount
  | structureOutputSize
  | op (o : FbucOp)

/-- What each finds. -/
abbrev AccessRes : Access → Type
  | .scalarInput _ => UInt64
  | .scalarInputCount => UInt32
  | .structureInputSize => UInt32
  | .scalarOutputCount => UInt32
  | .structureOutputSize => UInt32
  | .op o => FbucRes o

/-- A piece of the user client that looks into the block itself. -/
abbrev AccessProg : Type → Type := Prog Access AccessRes

/-- A piece that does not. -/
def lift {α : Type} (p : FbucProg α) : AccessProg α := interpret (fun o => perform (Access.op o)) p

/-- What a look finds in the block `args`. -/
def supply (args : IOExternalMethodArguments) : (a : Access) → FbucProg (AccessRes a)
  | .scalarInput i => pure (args.scalarInput i)
  | .scalarInputCount => pure args.scalarInputCount
  | .structureInputSize => pure args.structureInputSize
  | .scalarOutputCount => pure args.scalarOutputCount
  | .structureOutputSize => pure args.structureOutputSize
  | .op o => perform o

theorem supply_lift {α : Type} (args : IOExternalMethodArguments) (p : FbucProg α) :
    interpret (supply args) (lift p) = p :=
  interpret_interpret (fun _ => rfl) p

/-! ## The methods -/

/-- A method that looks at nothing and only writes its scalar outputs. -/
def answers (outputs : List UInt64) : AccessProg UInt64 := lift (scalarOutputs 0 outputs)

/-- The function of an external method, with its reads. -/
def Method.body : Method → AccessProg UInt64
  | .get_layer_default_sur => answers [1]
  | .swap_begin => answers [1]
  | .swap_end => answers []
  | .swap_wait => answers []
  | .get_id => answers [2]
  | .get_disp_size => answers [600, 800]
  | .req_power_change => answers []
  | .set_debug_flags => answers [1]
  | .set_gamma_table => answers []
  | .is_main_disp => answers [1]
  | .set_display_dev => answers []
  | .get_gamma_table => do
      let size ← perform Access.structureOutputSize
      let _ ← perform (Access.op (.structureOutput (List.replicate size.toNat 0x7f)))
      pure 0
  | .get_dot_pitch => answers [0]
  | .en_dis_vid_power_save => answers []
  | .surface_is_rep => answers [1]
  | .set_bright_corr => answers []
  | .set_matrix => answers []
  | .get_color_remap_mode => answers [6]
  | .set_parameter => answers []
  | .enable_notifications => do
      let cb ← perform (Access.scalarInput 0)
      let ref ← perform (Access.scalarInput 1)
      let type ← perform (Access.scalarInput 2)
      let port ← perform (Access.op (.load (.notif_ports type .port)))
      let task ← perform (Access.op (.load .task))
      let _ ← perform (Access.op (.IOUserClient_setAsyncReference64 (.notif_ports type .asnyc_ref64)
        port cb ref task))
      pure 0
  | .change_frame_info => do
      let type ← perform (Access.scalarInput 0)
      let _ ← perform (Access.op (.IOUserClient_sendAsyncResult64 (.notif_ports type .asnyc_ref64) 0
        [5, 6, 7, 8, 9, 10]))
      pure 0
  | .supported_frame_info => do
      let i ← perform (Access.scalarInput 0)
      match frameInfoText i with
      | none => lift cancel
      | some text => do
          let size ← perform Access.structureOutputSize
          let _ ← perform (Access.op (.structureOutput (strncpy text size.toNat)))
          answers [8]

/-- With the looks answered from a block, these are the methods on the block. -/
theorem Method.body_supply (args : IOExternalMethodArguments) (f : Method) :
    interpret (supply args) f.body = f.run args := by
  cases f with
  | get_gamma_table => rfl
  | enable_notifications => rfl
  | change_frame_info => rfl
  | supported_frame_info =>
      show interpret (supply args) (match frameInfoText (args.scalarInput 0) with
        | none => lift cancel
        | some text => _) = fbuc_ext_meth_supported_frame_info args
      unfold fbuc_ext_meth_supported_frame_info
      cases frameInfoText (args.scalarInput 0) with
      | none => exact supply_lift args cancel
      | some text => rfl
  | _ => exact supply_lift args _

/-! ## The dispatch -/

section Dispatch

variable (image : Image)

/-- `callFunction`, with its reads. -/
def callMethod (function : UInt64) : AccessProg UInt64 :=
  match image.methodAt function with
  | some f => f.body
  | none => perform (Access.op (.unknownFunction function))

theorem callMethod_supply (function : UInt64) (args : IOExternalMethodArguments) :
    interpret (supply args) (callMethod image function) = callFunction image function args := by
  unfold callMethod callFunction
  cases image.methodAt function with
  | none => rfl
  | some f => exact f.body_supply args

/-- `fbuc_externalMethod`, with its reads. -/
def externalMethod (selector : UInt32) : AccessProg UInt64 :=
  if selector.toUInt64 ≥ FBUC_MAX_EXT_FUNCS then lift cancel
  else do
    let entry := Place.fbuc_external_methods selector.toUInt64
    let function ← perform (Access.op (.load (entry .function)))
    if function = 0 then lift cancel
    else do
      -- `IOUserClient::externalMethod`
      let scic ← perform (Access.op (.load (entry .checkScalarInputCount)))
      let stic ← perform (Access.op (.load (entry .checkStructureInputSize)))
      let scoc ← perform (Access.op (.load (entry .checkScalarOutputCount)))
      let stoc ← perform (Access.op (.load (entry .checkStructureOutputSize)))
      let scalarInputCount ← perform Access.scalarInputCount
      let structureInputSize ← perform Access.structureInputSize
      let scalarOutputCount ← perform Access.scalarOutputCount
      let structureOutputSize ← perform Access.structureOutputSize
      if countPasses scic scalarInputCount && countPasses stic structureInputSize
          && countPasses scoc scalarOutputCount && countPasses stoc structureOutputSize then do
        let function ← perform (Access.op (.load (entry .function)))
        callMethod image function
      else
        pure kIOReturnBadArgument

/-- With the looks answered from a block, this is the dispatch of the block. -/
theorem externalMethod_supply (selector : UInt32) (args : IOExternalMethodArguments) :
    interpret (supply args) (externalMethod image selector)
      = fbuc_externalMethod image selector args := by
  unfold externalMethod fbuc_externalMethod IOUserClient_externalMethod
  simp only [apply_ite (interpret (supply args)), supply_lift, perform_bind, interpret_call, supply,
    pure_eq, ret_bind, interpret_ret, callMethod_supply]

end Dispatch

/-! ## Counts -/

/-- The scalar inputs that a method reads. -/
def Method.inputs : Method → ℕ
  | .enable_notifications => 3
  | .change_frame_info => 1
  | .supported_frame_info => 1
  | _ => 0

/-- The scalar outputs that it writes. -/
def Method.outputs : Method → ℕ
  | .get_layer_default_sur => 1
  | .swap_begin => 1
  | .get_id => 1
  | .get_disp_size => 2
  | .set_debug_flags => 1
  | .is_main_disp => 1
  | .get_dot_pitch => 1
  | .surface_is_rep => 1
  | .get_color_remap_mode => 1
  | .supported_frame_info => 1
  | _ => 0

/-- The methods that fill the structure. -/
def Method.fills : Method → Bool
  | .get_gamma_table => true
  | .supported_frame_info => true
  | _ => false

/-- **The table.** The rows declare what the methods do. -/
theorem installs_declared : ∀ e ∈ installs, e.func.inputs ≤ e.scic.toNat
    ∧ e.func.outputs = e.scoc.toNat ∧ (e.stoc ≠ 0 → e.func.fills = true) := by
  decide

/-- What has been written of the outputs. -/
structure Outputs where
  scalar : ℕ → Option UInt64
  byte : ℕ → Option UInt8

/-- The outputs before a call. -/
def Outputs.unwritten : Outputs := ⟨fun _ => none, fun _ => none⟩

def Outputs.setScalar (o : Outputs) (i : ℕ) (v : UInt64) : Outputs :=
  { o with scalar := Function.update o.scalar i (some v) }

/-- The structure after its first bytes have been written. -/
def Outputs.setBytes (o : Outputs) (bytes : List UInt8) : Outputs :=
  { o with byte := fun j => bytes[j]?.or (o.byte j) }

/-- What surrounds a call with the block `args`. -/
def accessEnv (args : IOExternalMethodArguments) : Env Access AccessRes (Mem × Outputs)
  | .scalarInput i, s, v, s' => v = args.scalarInput i ∧ s' = s
  | .scalarInputCount, s, v, s' => v = args.scalarInputCount ∧ s' = s
  | .structureInputSize, s, v, s' => v = args.structureInputSize ∧ s' = s
  | .scalarOutputCount, s, v, s' => v = args.scalarOutputCount ∧ s' = s
  | .structureOutputSize, s, v, s' => v = args.structureOutputSize ∧ s' = s
  | .op (.scalarOutput i v), s, _, s' => s' = (s.1, s.2.setScalar i v)
  | .op (.structureOutput bytes), s, _, s' => s' = (s.1, s.2.setBytes bytes)
  | .op o, s, r, s' => env o s.1 r s'.1 ∧ s'.2 = s.2

/-- An access within so many scalar inputs and outputs, and so many bytes of the structure. -/
def Within (inputs outputs size : ℕ) : Option Access → Prop
  | some (.scalarInput i) => i < inputs
  | some (.op (.scalarOutput i _)) => i < outputs
  | some (.op (.structureOutput bytes)) => bytes.length ≤ size
  | some (.op (.unknownFunction _)) => False
  | _ => True

/-- So many scalar outputs have been written, and if `fills` so many bytes of the structure. -/
def Outputs.Written (o : Outputs) (outputs size : ℕ) (fills : Bool) : Prop :=
  (∀ i < outputs, (o.scalar i).isSome) ∧ (fills = true → ∀ j < size, (o.byte j).isSome)

section Methods

variable {args : IOExternalMethodArguments} {m : Mem} {inputs outputs size : ℕ}

/-- Writing scalar outputs in turn. -/
theorem scalarOutputs_within {fills : Bool} (vs : List UInt64) : ∀ (i : ℕ) {o : Outputs},
    i + vs.length ≤ outputs → o.Written i size fills →
      Always (accessEnv args) (fun a _ => Within inputs outputs size a)
        (fun _ s => s.2.Written (i + vs.length) size fills) (lift (scalarOutputs i vs)) (m, o) := by
  induction vs with
  | nil => exact fun i o _ ho => always_ret.mpr ⟨trivial, ho⟩
  | cons v vs ih =>
      intro i o hle ho
      rw [List.length_cons] at hle ⊢
      refine always_call.mpr ⟨show i < outputs by omega, fun _ s hs => ?_⟩
      obtain rfl : s = (m, o.setScalar i v) := hs
      have hwritten : (o.setScalar i v).Written (i + 1) size fills := by
        refine ⟨fun k hk => ?_, ho.2⟩
        by_cases hki : k = i
        · subst hki
          simp [Outputs.setScalar]
        · simp only [Outputs.setScalar, Function.update_of_ne hki]
          exact ho.1 k (by omega)
      have hrest := ih (i + 1) (by omega) hwritten
      rw [Nat.add_right_comm i 1] at hrest
      exact hrest

theorem strncpy_length (text : String) (n : ℕ) : (strncpy text n).length = n := by
  simp [strncpy]

/-- The structure is full when it has been written to its size. -/
theorem setBytes_written {bytes : List UInt8} (hlen : bytes.length = size) (fills : Bool) :
    (Outputs.unwritten.setBytes bytes).Written 0 size fills := by
  refine ⟨fun i hi => absurd hi (Nat.not_lt_zero i), fun _ j hj => ?_⟩
  simp [Outputs.setBytes, List.getElem?_eq_getElem (hlen ▸ hj : j < bytes.length)]

/-- The methods that only answer. -/
theorem answers_within {fills : Bool} {o : Outputs} (vs : List UInt64) (hlen : vs.length = outputs)
    (ho : o.Written 0 size fills) :
    Always (accessEnv args) (fun a _ => Within inputs outputs size a)
      (fun _ s => s.2.Written outputs size fills) (answers vs) (m, o) := by
  have h : Always (accessEnv args) (fun a _ => Within inputs outputs size a)
      (fun _ s => s.2.Written (0 + vs.length) size fills) (lift (scalarOutputs 0 vs)) (m, o) :=
    scalarOutputs_within vs 0 (by omega) ho
  rw [Nat.zero_add, hlen] at h
  exact h

/-- **A method keeps to what it needs**, and writes what it says it does. -/
theorem Method.body_within (f : Method) :
    Always (accessEnv args)
      (fun a _ => Within f.inputs f.outputs args.structureOutputSize.toNat a)
      (fun _ s => s.2.Written f.outputs args.structureOutputSize.toNat f.fills)
      f.body (m, .unwritten) := by
  have hnone : ∀ {size : ℕ}, Outputs.unwritten.Written 0 size false :=
    ⟨fun i hi => absurd hi (Nat.not_lt_zero i), fun h => absurd h Bool.false_ne_true⟩
  cases f with
  | get_gamma_table =>
      refine always_call.mpr ⟨trivial, ?_⟩
      rintro size s ⟨rfl, rfl⟩
      have hlen : (List.replicate args.structureOutputSize.toNat (0x7f : UInt8)).length
          = args.structureOutputSize.toNat := List.length_replicate
      refine always_call.mpr ⟨Nat.le_of_eq hlen, ?_⟩
      rintro - s rfl
      exact always_ret.mpr ⟨trivial, setBytes_written hlen _⟩
  | enable_notifications =>
      refine always_call.mpr ⟨show 0 < 3 by decide, ?_⟩
      rintro cb s ⟨rfl, rfl⟩
      refine always_call.mpr ⟨show 1 < 3 by decide, ?_⟩
      rintro ref s ⟨rfl, rfl⟩
      refine always_call.mpr ⟨show 2 < 3 by decide, ?_⟩
      rintro type s ⟨rfl, rfl⟩
      -- `members` and IOKit, which leave the outputs alone
      refine always_call.mpr ⟨trivial, ?_⟩
      rintro port ⟨m₁, o₁⟩ ⟨-, rfl⟩
      refine always_call.mpr ⟨trivial, ?_⟩
      rintro task ⟨m₂, o₂⟩ ⟨-, rfl⟩
      refine always_call.mpr ⟨trivial, ?_⟩
      rintro - ⟨m₃, o₃⟩ ⟨-, rfl⟩
      exact always_ret.mpr ⟨trivial, hnone⟩
  | change_frame_info =>
      refine always_call.mpr ⟨show 0 < 1 by decide, ?_⟩
      rintro type s ⟨rfl, rfl⟩
      refine always_call.mpr ⟨trivial, ?_⟩
      rintro - ⟨m₁, o₁⟩ ⟨-, rfl⟩
      exact always_ret.mpr ⟨trivial, hnone⟩
  | supported_frame_info =>
      refine always_call.mpr ⟨show 0 < 1 by decide, ?_⟩
      rintro i s ⟨rfl, rfl⟩
      show Always _ _ _ (match frameInfoText (args.scalarInput 0) with
        | none => lift cancel
        | some text => _) _
      cases frameInfoText (args.scalarInput 0) with
      | none => exact always_call.mpr ⟨trivial, fun never => never.elim⟩
      | some text =>
          refine always_call.mpr ⟨trivial, ?_⟩
          rintro size s ⟨rfl, rfl⟩
          have hlen := strncpy_length text args.structureOutputSize.toNat
          refine always_call.mpr ⟨Nat.le_of_eq hlen, ?_⟩
          rintro - s rfl
          exact answers_within [8] rfl (setBytes_written hlen _)
  | _ => exact answers_within _ rfl hnone

end Methods

/-! ## The dispatch -/

section Calls

variable {image : Image} {args : IOExternalMethodArguments} {m : Mem}

theorem Within.mono {inputs inputs' outputs outputs' size : ℕ} (hinputs : inputs ≤ inputs')
    (houtputs : outputs ≤ outputs') {a : Option Access} (h : Within inputs outputs size a) :
    Within inputs' outputs' size a := by
  unfold Within at h ⊢
  split
  · exact Nat.lt_of_lt_of_le h hinputs
  · exact Nat.lt_of_lt_of_le h houtputs
  · exact h
  · exact h
  · trivial

/-- Loading a field of an installed entry. -/
theorem load_installed {j : UInt64} {e : Install} (he : installOf j = some e)
    (hentry : EntryKept image m j) (f : DispatchField) {k : UInt64 → AccessProg UInt64}
    {o : Outputs} {inputs outputs size : ℕ} {Q : UInt64 → Mem × Outputs → Prop}
    (hk : Always (accessEnv args) (fun a _ => Within inputs outputs size a) Q (k (e.value image f))
      (m, o)) :
    Always (accessEnv args) (fun a _ => Within inputs outputs size a) Q
      (perform (Access.op (.load (.fbuc_external_methods j f))) >>= k) (m, o) := by
  unfold EntryKept at hentry
  rw [he] at hentry
  refine always_call.mpr ⟨trivial, ?_⟩
  rintro v ⟨m', o'⟩ ⟨⟨hv, rfl⟩, rfl⟩
  have hvalue : v = e.value image f :=
    hv.trans ((congrArg UInt64.ofNat (hentry f)).trans UInt64.ofNat_toNat)
  exact hvalue ▸ hk

/-- **A call that passes.** The dispatch looks at nothing but the counts, and then the method
of the entry keeps to them. -/
theorem externalMethod_within {selector : UInt32} {e : Install}
    (he : installOf selector.toUInt64 = some e) (hentry : EntryKept image m selector.toUInt64)
    (hpasses : e.Passes args) :
    Always (accessEnv args)
      (fun a _ => Within e.scic.toNat e.scoc.toNat args.structureOutputSize.toNat a)
      (fun _ s => s.2.Written e.scoc.toNat args.structureOutputSize.toNat (e.stoc != 0))
      (externalMethod image selector) (m, .unwritten) := by
  obtain ⟨hmem, hindex⟩ := installOf_some he
  obtain ⟨hinputs, houtputs, hfills⟩ := installs_declared e hmem
  have hj : ¬ selector.toUInt64 ≥ FBUC_MAX_EXT_FUNCS :=
    UInt64.not_le.mpr (hindex ▸ (installs_settled e hmem).2)
  have hne : ¬ e.value image .function = 0 := image.ne_null e.func
  have hfound : image.methodAt (e.value image .function) = some e.func :=
    image.methodAt_address e.func
  unfold externalMethod
  rw [if_neg hj]
  refine load_installed he hentry .function ?_
  rw [if_neg hne]
  refine load_installed he hentry .checkScalarInputCount ?_
  refine load_installed he hentry .checkStructureInputSize ?_
  refine load_installed he hentry .checkScalarOutputCount ?_
  refine load_installed he hentry .checkStructureOutputSize ?_
  -- the four counts of the block
  refine always_call.mpr ⟨trivial, ?_⟩
  rintro - s ⟨rfl, rfl⟩
  refine always_call.mpr ⟨trivial, ?_⟩
  rintro - s ⟨rfl, rfl⟩
  refine always_call.mpr ⟨trivial, ?_⟩
  rintro - s ⟨rfl, rfl⟩
  refine always_call.mpr ⟨trivial, ?_⟩
  rintro - s ⟨rfl, rfl⟩
  show Always _ _ _ (if _ then _ else _) _
  rw [if_pos (e.passes_value.mp hpasses)]
  refine load_installed he hentry .function ?_
  unfold callMethod
  rw [hfound]
  refine e.func.body_within.mono (fun a s h => ?_) fun v s _ h => ?_
  · exact h.mono hinputs (Nat.le_of_eq houtputs)
  · exact ⟨houtputs ▸ h.1, fun hstoc => h.2 (hfills (bne_iff_ne.mp hstoc))⟩

/-- **Methods stay within their declared counts.** On an object as `fbuc_start` leaves it, a call
that passes reads and writes only what its entry declares, and when it returns it has written
all of it. -/
theorem start_within (image : Image) (m₀ : Mem) :
    Always env (fun _ _ => True)
      (fun _ m => ∀ (selector : UInt32) (args : IOExternalMethodArguments) (e : Install),
        installOf selector.toUInt64 = some e → e.Passes args →
          Always (accessEnv args)
            (fun a _ => Within e.scic.toNat e.scoc.toNat args.structureOutputSize.toNat a)
            (fun _ s => s.2.Written e.scoc.toNat args.structureOutputSize.toNat (e.stoc != 0))
            (externalMethod image selector) (m, .unwritten))
      (fbuc_start image) m₀ := by
  refine (start_entries m₀).mono (fun _ _ h => h)
    fun _ m _ hentries selector args e he hpasses => ?_
  obtain ⟨hmem, hindex⟩ := installOf_some he
  refine externalMethod_within he (hentries _ ?_ ?_) hpasses
  · exact hindex ▸ (installs_settled e hmem).2
  · rw [he]
    exact Option.some_ne_none e

/-- Arguments for `supported_frame_info`. -/
def frameInfoArgs (i : UInt64) : IOExternalMethodArguments where
  scalarInput _ := i
  scalarInputCount := 1
  structureInputSize := 0
  scalarOutputCount := 1
  structureOutputSize := 64

/-- A call of `supported_frame_info` reads one scalar, writes one, and fills 64 bytes. -/
theorem start_within_frameInfo :
    Always (accessEnv (frameInfoArgs 3)) (fun a _ => Within 1 1 64 a)
      (fun _ s => s.2.Written 1 64 true) (externalMethod exampleImage 74)
      (startedMem, .unwritten) := by
  have hstart : exec (serve .fbuc_start) (fbuc_start exampleImage) (fun _ => 0)
      = some (1, startedMem) := exec_startFrom installs installs_settled _
  exact (start_within exampleImage fun _ => 0).exec serve_env hstart 74 (frameInfoArgs 3)
    ⟨.supported_frame_info, 74, 1, 0, 1, 64⟩ rfl
    ((passes_iff (by decide) (by decide) (by decide) (by decide)).mpr ⟨rfl, rfl, rfl, rfl⟩)

end Calls

end XnuQemuTools.Fbuc

/-
The framebuffer user client called by several threads at once.

Nothing in the driver locks `members`, so the operations of calls that come together can
mix in any order. `threads_guarded_iff` is what is left of the guarantees then, which is
all that does not need an order: the dispatch table stays as `fbuc_start` made it, no
thread leaves `notif_ports` and none ever calls a function that is not one of the external
methods; a reference is built for a type that some call enabled, with the callback and the
reference of that call, from a port that was registered for this type and a task that the
object was given; and a result is sent for a type that some call asked for. Which of the
registered ports it is, the order decides.

It is an equivalence again: the calls have to be bounded (`VirtualCall.Bounded`), and that
is all they have to be. The argument is an invariant of `members` (`Kept`) that every
operation keeps by itself, so no thread needs to know where the others are
(`Reachable.steady`).

`IOUserClient::setAsyncReference64` is one operation here. It writes its array and nothing
else, and the invariant is not about the arrays, so it could as well be eight.
-/
import XnuQemuTools.FbucNotify
import XnuQemuTools.Interleave

set_option autoImplicit false

namespace XnuQemuTools.Fbuc

open Calls Calls.Prog Memory Interleave

/-! ## Where things come from -/

section Origins

/-- `notif_ports[t].port`. -/
def portOf (m : Mem) (t : UInt64) : UInt64 :=
  UInt64.ofNat (Words.load m (Place.notif_ports t .port).offset 8)

/-- `task`. -/
def taskOf (m : Mem) : UInt64 := UInt64.ofNat (Words.load m 0 8)

variable (image : Image) (calls : VirtualCall → Prop) (m₀ : Mem)

/-- A port that was there for type `t`, or is registered for it. -/
def PortGiven (t port : UInt64) : Prop :=
  port = portOf m₀ t ∨ ∃ ref, calls (.fbuc_registerNotificationPort port t ref)

/-- A task that was there, or that the object is given. -/
def TaskGiven (task : UInt64) : Prop :=
  task = taskOf m₀ ∨ ∃ sid type, calls (.fbuc_initWithTask task sid type)

/-- What leaves the object was asked for by one of the calls. -/
def Lawful : Option FbucOp → Prop
  | some (.IOUserClient_setAsyncReference64 aref port cb ref task) =>
      ∃ args, calls (.fbuc_externalMethod 72 args) ∧ args.HasCounts 4 0 0 0
        ∧ aref = .notif_ports (args.scalarInput 2) .asnyc_ref64
        ∧ PortGiven calls m₀ (args.scalarInput 2) port ∧ cb = args.scalarInput 0
        ∧ ref = args.scalarInput 1 ∧ TaskGiven calls m₀ task
  | some (.IOUserClient_sendAsyncResult64 aref res words) =>
      ∃ args, calls (.fbuc_externalMethod 73 args) ∧ args.HasCounts 2 0 0 0
        ∧ aref = .notif_ports (args.scalarInput 0) .asnyc_ref64 ∧ res = 0
        ∧ words = [5, 6, 7, 8, 9, 10]
  | some (.unknownFunction _) => False
  | _ => True

/-- What holds of `members` at all times. -/
structure Kept (m : Mem) : Prop where
  table : TableKept image m
  port : ∀ t, t < FBUC_MAX_NOTIF_PORTS → PortGiven calls m₀ t (portOf m t)
  task : TaskGiven calls m₀ (taskOf m)

/-- What holds of every operation, where it is made. -/
def Guarded (o : Option FbucOp) (m : Mem) : Prop := Safe image o m ∧ Lawful calls m₀ o

end Origins

/-! ## What the operations keep -/

section Keep

variable {image : Image} {calls : VirtualCall → Prop} {m₀ m m' : Mem} {t : UInt64}

theorem kept_start (h : TableKept image m₀) : Kept image calls m₀ m₀ where
  table := h
  port _ _ := Or.inl rfl
  task := Or.inl rfl

/-- A word that is stored is the word that is loaded. -/
theorem ofNat_load_store (a : ℕ) (v : UInt64) :
    UInt64.ofNat (Words.load (Words.store m a 8 v.toNat) a 8) = v := by
  have hword : v.toNat % 256 ^ 8 = v.toNat := Nat.mod_eq_of_lt v.toNat_lt
  rw [Words.load_store_self, hword, UInt64.ofNat_toNat]

/-- `members` without changes to the table, to the ports or to the task. -/
theorem Kept.congr (h : Kept image calls m₀ m)
    (htable : ∀ a, 712 ≤ a → a < sizeofMembers → m' a = m a)
    (hport : ∀ t, t < FBUC_MAX_NOTIF_PORTS →
      portOf m' t = portOf m t ∨ PortGiven calls m₀ t (portOf m' t))
    (htask : taskOf m' = taskOf m ∨ TaskGiven calls m₀ (taskOf m')) : Kept image calls m₀ m' where
  table := h.table.congr htable
  port t ht := by
    rcases hport t ht with hsame | hgiven
    · rw [hsame]
      exact h.port t ht
    · exact hgiven
  task := by
    rcases htask with hsame | hgiven
    · rw [hsame]
      exact h.task
    · exact hgiven

/-- A store of the task. -/
theorem Kept.store_task (h : Kept image calls m₀ m) {v : UInt64} (hv : TaskGiven calls m₀ v) :
    Kept image calls m₀ (Words.store m 0 8 v.toNat) := by
  refine h.congr (fun a ha _ => Words.store_outside (by omega)) (fun t ht => Or.inl ?_)
    (Or.inr ?_)
  · have hplace := offset_port ht
    have hload := Words.load_store_of_disjoint (m := m) (v := v.toNat)
      (Or.inr (by omega) : (Place.notif_ports t .port).offset + 8 ≤ 0
        ∨ 0 + 8 ≤ (Place.notif_ports t .port).offset)
    exact congrArg UInt64.ofNat hload
  · have htask : taskOf (Words.store m 0 8 v.toNat) = v := ofNat_load_store 0 v
    rw [htask]
    exact hv

/-- A store into a field in front of the array. -/
theorem Kept.store_front (h : Kept image calls m₀ m) (ht : t < FBUC_MAX_NOTIF_PORTS)
    {f : NotifPortField} (hf : f ≠ .asnyc_ref64) {v : UInt64}
    (hv : f = .port → PortGiven calls m₀ t v) :
    Kept image calls m₀ (Words.store m (Place.notif_ports t f).offset f.size v.toNat) := by
  obtain ⟨hoffset, hend⟩ := offset_notif_ports ht f
  refine h.congr (fun a ha _ => Words.store_outside (by omega)) (fun t' ht' => ?_) (Or.inl ?_)
  · by_cases hself : t' = t ∧ f = .port
    · -- the port that is stored
      obtain ⟨rfl, rfl⟩ := hself
      have hport : portOf (Words.store m (Place.notif_ports t' .port).offset
          NotifPortField.port.size v.toNat) t' = v := ofNat_load_store _ v
      rw [hport]
      exact Or.inr (hv rfl)
    · have hload := (front_store (m := m) ht hf v.toNat).2 t' ht' (not_and_or.mp hself)
      exact Or.inl (congrArg UInt64.ofNat hload)
  · have hload := Words.load_store_of_disjoint (m := m) (v := v.toNat)
      (Or.inl (by omega) : 0 + 8 ≤ (Place.notif_ports t f).offset
        ∨ (Place.notif_ports t f).offset + f.size ≤ 0)
    exact congrArg UInt64.ofNat hload

/-- Whatever is written to an array. -/
theorem Kept.array (h : Kept image calls m₀ m) (ht : t < FBUC_MAX_NOTIF_PORTS)
    (hmem : ∀ a, ¬ (Place.notif_ports t .asnyc_ref64).Covers a → m' a = m a) :
    Kept image calls m₀ m' := by
  have hindex : t.toNat < 8 := UInt64.lt_iff_toNat_lt.mp ht
  have hout : ∀ a, a < 32 + 88 * t.toNat ∨ 96 + 88 * t.toNat ≤ a → m' a = m a := by
    intro a ha
    refine hmem a fun hc => ?_
    have hrange := (covers_array ht).mp hc
    omega
  refine h.congr (fun a ha _ => hout a (by omega)) (fun t' ht' => Or.inl ?_) (Or.inl ?_)
  · have hplace := offset_port ht'
    have hload : Words.load m' (Place.notif_ports t' .port).offset 8
        = Words.load m (Place.notif_ports t' .port).offset 8 :=
      Words.load_congr 8 _ fun a ha hlt => hout a (by omega)
    exact congrArg UInt64.ofNat hload
  · have hload : Words.load m' 0 8 = Words.load m 0 8 :=
      Words.load_congr 8 0 fun a ha hlt => hout a (by omega)
    exact congrArg UInt64.ofNat hload

end Keep

/-! ## The functions, wherever the others are -/

section Functions

variable {α : Type} {image : Image} {calls : VirtualCall → Prop} {m₀ : Mem}

/-- Whatever the other threads do: the operations are guarded, and keep `members`. -/
abbrev Steadily (image : Image) (calls : VirtualCall → Prop) (m₀ : Mem) (p : FbucProg α) : Prop :=
  Steady env (Kept image calls m₀) (Guarded image calls m₀) p

/-- The rule for one operation. -/
theorem steadily_call {op : FbucOp} {k : FbucRes op → FbucProg α} (hbounds : InBounds (some op))
    (hlawful : Lawful calls m₀ (some op))
    (hkeep : ∀ m r m', Kept image calls m₀ m → env op m r m' → Kept image calls m₀ m')
    (hk : ∀ r, Steadily image calls m₀ (k r)) : Steadily image calls m₀ (Prog.call op k) :=
  fun m hm => ⟨⟨⟨hbounds, hm.table⟩, hlawful⟩, fun r m' hr => ⟨hkeep m r m' hm hr, hk r⟩⟩

/-- Operations that write nothing of `members` and are no access of `notif_ports`. -/
theorem steadily_silent (op : FbucOp) {k : FbucRes op → FbucProg α} (hnone : op.notifIndex = none)
    (hwrites : ∀ a, ¬ op.Writes a) (hlawful : Lawful calls m₀ (some op))
    (hk : ∀ r, Steadily image calls m₀ (k r)) : Steadily image calls m₀ (Prog.call op k) := by
  refine steadily_call (quiet_of_silent op hnone hwrites).inBounds hlawful (fun m r m' hm hr => ?_) hk
  have hsame : m' = m := funext fun a => env_frame hr (hwrites a)
  rw [hsame]
  exact hm

/-- A load, of whatever is there by then. -/
theorem steadily_load {p : Place} {k : UInt64 → FbucProg α} (hbounds : InBounds (some (.load p)))
    (hk : ∀ m, Kept image calls m₀ m →
      Steadily image calls m₀ (k (UInt64.ofNat (Words.load m p.offset p.size)))) :
    Steadily image calls m₀ (Prog.call (FbucOp.load p) k) := by
  refine fun m hm => ⟨⟨⟨hbounds, hm.table⟩, trivial⟩, ?_⟩
  rintro v m' ⟨rfl, rfl⟩
  exact ⟨hm, hk m' hm⟩

theorem steadily_return (a : α) : Steadily image calls m₀ (pure a) :=
  fun _ hm => ⟨⟨fun _ _ hop => (nomatch hop), hm.table⟩, trivial⟩

theorem steadily_cancel : Steadily image calls m₀ (cancel : FbucProg α) :=
  steadily_silent .cancel rfl (fun _ h => h) trivial fun never => never.elim

theorem scalarOutputs_steadily (vs : List UInt64) :
    ∀ i : ℕ, Steadily image calls m₀ (scalarOutputs i vs) := by
  induction vs with
  | nil => exact fun _ => steadily_return 0
  | cons v vs ih =>
      intro i
      rw [scalarOutputs, perform_bind]
      exact steadily_silent _ rfl (fun _ h => h) trivial fun _ => ih (i + 1)

theorem supported_frame_info_steadily (args : IOExternalMethodArguments) :
    Steadily image calls m₀ (fbuc_ext_meth_supported_frame_info args) := by
  unfold fbuc_ext_meth_supported_frame_info
  cases frameInfoText (args.scalarInput 0) with
  | none => exact steadily_cancel
  | some text =>
      exact steadily_silent _ rfl (fun _ h => h) trivial fun _ => scalarOutputs_steadily _ 0

theorem enable_notifications_steadily {args : IOExternalMethodArguments}
    (hcall : calls (.fbuc_externalMethod 72 args)) (hcounts : args.HasCounts 4 0 0 0)
    (htype : args.scalarInput 2 < FBUC_MAX_NOTIF_PORTS) :
    Steadily image calls m₀ (fbuc_ext_meth_enable_notifications args) := by
  refine steadily_load (inBounds_some rfl htype) fun m₁ h₁ => ?_
  refine steadily_load (quiet_of_silent (.load .task) rfl fun _ h => h).inBounds fun m₂ h₂ => ?_
  -- the port as it was at the first load, the task as it was at the second
  have hport : PortGiven calls m₀ (args.scalarInput 2) (portOf m₁ (args.scalarInput 2)) :=
    h₁.port _ htype
  have htask : TaskGiven calls m₀ (taskOf m₂) := h₂.task
  refine steadily_call (inBounds_some rfl htype)
    ⟨args, hcall, hcounts, rfl, hport, rfl, rfl, htask⟩ (fun m r m' hm hr => ?_)
    fun _ => steadily_return 0
  exact hm.array htype hr

theorem change_frame_info_steadily {args : IOExternalMethodArguments}
    (hcall : calls (.fbuc_externalMethod 73 args)) (hcounts : args.HasCounts 2 0 0 0)
    (htype : args.scalarInput 0 < FBUC_MAX_NOTIF_PORTS) :
    Steadily image calls m₀ (fbuc_ext_meth_change_frame_info args) := by
  refine steadily_call (inBounds_some rfl htype) ⟨args, hcall, hcounts, rfl, rfl, rfl⟩
    (fun m r m' hm hr => ?_) fun _ => steadily_return 0
  have hsame : m' = m := hr
  rw [hsame]
  exact hm

/-- A call came to the method, and its index is below 8. -/
def Method.Admitted (calls : VirtualCall → Prop) (args : IOExternalMethodArguments) :
    Method → Prop
  | .enable_notifications => calls (.fbuc_externalMethod 72 args) ∧ args.HasCounts 4 0 0 0
      ∧ args.scalarInput 2 < FBUC_MAX_NOTIF_PORTS
  | .change_frame_info => calls (.fbuc_externalMethod 73 args) ∧ args.HasCounts 2 0 0 0
      ∧ args.scalarInput 0 < FBUC_MAX_NOTIF_PORTS
  | _ => True

theorem Method.run_steadily {f : Method} {args : IOExternalMethodArguments}
    (h : f.Admitted calls args) : Steadily image calls m₀ (f.run args) := by
  cases f with
  | enable_notifications => exact enable_notifications_steadily h.1 h.2.1 h.2.2
  | change_frame_info => exact change_frame_info_steadily h.1 h.2.1 h.2.2
  | get_gamma_table =>
      exact steadily_silent (.structureOutput _) rfl (fun _ h => h) trivial
        fun _ => steadily_return 0
  | supported_frame_info => exact supported_frame_info_steadily args
  | _ => exact scalarOutputs_steadily _ 0

/-- The entry that a selector leads to, and the comparison of its counts. -/
theorem admitted_entry {selector : UInt32} {args : IOExternalMethodArguments} {e : Install}
    (he : installOf selector.toUInt64 = some e) (hcall : calls (.fbuc_externalMethod selector args))
    (hbounded : (VirtualCall.fbuc_externalMethod selector args).Bounded) (hpasses : e.Passes args) :
    e.func.Admitted calls args := by
  obtain ⟨hmem, hindex⟩ := installOf_some he
  have hselector : ∀ s : UInt32, e.index = s.toUInt64 → selector = s := fun s hs =>
    UInt32.toUInt64_inj.mp (hindex.symm.trans hs)
  rcases installs_ports e hmem with ⟨hen, hch, -, -⟩ | rfl | rfl
  · unfold Method.Admitted
    split
    · rename_i hfunc
      exact absurd hfunc hen
    · rename_i hfunc
      exact absurd hfunc hch
    · trivial
  · obtain rfl : selector = 72 := hselector 72 rfl
    have hcounts := (passes_iff (by decide) (by decide) (by decide) (by decide)).mp hpasses
    exact ⟨hcall, hcounts, hbounded.1 rfl hcounts⟩
  · obtain rfl : selector = 73 := hselector 73 rfl
    have hcounts := (passes_iff (by decide) (by decide) (by decide) (by decide)).mp hpasses
    exact ⟨hcall, hcounts, hbounded.2 rfl hcounts⟩

theorem steadily_load_entry {j : UInt64} {e : Install} (hj : j < FBUC_MAX_EXT_FUNCS)
    (he : installOf j = some e) (f : DispatchField) {k : UInt64 → FbucProg α}
    (hk : Steadily image calls m₀ (k (e.value image f))) :
    Steadily image calls m₀ (Prog.call (FbucOp.load (.fbuc_external_methods j f)) k) := by
  refine steadily_load (quiet_load_external_methods j f).inBounds fun m hm => ?_
  have hentry := hm.table j hj
  unfold EntryKept at hentry
  rw [he] at hentry
  have hvalue : UInt64.ofNat (Words.load m (Place.fbuc_external_methods j f).offset
      (Place.fbuc_external_methods j f).size) = e.value image f :=
    (congrArg UInt64.ofNat (hentry f)).trans UInt64.ofNat_toNat
  rw [hvalue]
  exact hk

theorem externalMethod_steadily {selector : UInt32} {args : IOExternalMethodArguments}
    (hcall : calls (.fbuc_externalMethod selector args))
    (hbounded : (VirtualCall.fbuc_externalMethod selector args).Bounded) :
    Steadily image calls m₀ (fbuc_externalMethod image selector args) := by
  unfold fbuc_externalMethod
  by_cases hj : selector.toUInt64 < FBUC_MAX_EXT_FUNCS
  · rw [if_neg (UInt64.not_le.mpr hj), perform_bind]
    rcases he : installOf selector.toUInt64 with - | e
    · -- no entry, so its function is null for good
      refine steadily_load (quiet_load_external_methods _ _).inBounds fun m hm => ?_
      have hentry := hm.table _ hj
      unfold EntryKept at hentry
      rw [he] at hentry
      have hnull : UInt64.ofNat (Words.load m
          (Place.fbuc_external_methods selector.toUInt64 .function).offset
          (Place.fbuc_external_methods selector.toUInt64 .function).size) = 0 :=
        congrArg UInt64.ofNat hentry
      rw [if_pos hnull]
      exact steadily_cancel
    · have hne : ¬ e.value image .function = 0 := image.ne_null e.func
      refine steadily_load_entry hj he _ ?_
      rw [if_neg hne]
      unfold IOUserClient_externalMethod
      simp only [perform_bind]
      refine steadily_load_entry hj he _ (steadily_load_entry hj he _
        (steadily_load_entry hj he _ (steadily_load_entry hj he _ ?_)))
      by_cases hpasses : e.Passes args
      · rw [if_pos (e.passes_value.mp hpasses)]
        refine steadily_load_entry hj he _ ?_
        rw [e.callFunction_value]
        exact Method.run_steadily (admitted_entry he hcall hbounded hpasses)
      · rw [if_neg (mt e.passes_value.mpr hpasses)]
        exact steadily_return _
  · rw [if_pos (UInt64.not_lt.mp hj)]
    exact steadily_cancel

theorem install_steadily {e : Install} (he : installOf e.index = some e)
    (hindex : e.index < FBUC_MAX_EXT_FUNCS) : Steadily image calls m₀
      (fbuc_install_external_method image e.func e.index e.scic e.stic e.scoc e.stoc) := by
  -- every store puts what is there
  have hstore : ∀ (f : DispatchField) {k : Unit → FbucProg Unit}, Steadily image calls m₀ (k ()) →
      Steadily image calls m₀
        (Prog.call (FbucOp.store (.fbuc_external_methods e.index f) (e.value image f)) k) := by
    intro f k hk
    refine steadily_call (fun op i hop hi => ?_) trivial (fun m _ m' hm hr => ?_) fun _ => hk
    · obtain rfl := Option.some.inj hop
      cases hi
    · have hsame : m' = m := (hr : m' = _).trans (storeField_kept hm.table he hindex f)
      rw [hsame]
      exact hm
  unfold fbuc_install_external_method
  rw [if_neg (UInt64.not_le.mpr hindex)]
  exact hstore .function (hstore .checkScalarInputCount (hstore .checkStructureInputSize
    (hstore .checkScalarOutputCount (hstore .checkStructureOutputSize (steadily_return ())))))

theorem startFrom_steadily (es : List Install)
    (hes : ∀ e ∈ es, installOf e.index = some e ∧ e.index < FBUC_MAX_EXT_FUNCS) :
    Steadily image calls m₀ (startFrom image es) := by
  induction es with
  | nil => exact steadily_silent _ rfl (fun _ h => h) trivial fun v => steadily_return v
  | cons e es ih =>
      obtain ⟨he, hindex⟩ := hes e List.mem_cons_self
      exact (install_steadily he hindex).bind
        fun _ => ih fun e' he' => hes e' (List.mem_cons_of_mem e he')

theorem registerNotificationPort_steadily {port type ref : UInt64}
    (hcall : calls (.fbuc_registerNotificationPort port type ref)) :
    Steadily image calls m₀ (fbuc_registerNotificationPort port type ref) := by
  unfold fbuc_registerNotificationPort
  by_cases htype : type < FBUC_MAX_NOTIF_PORTS
  · have hstore : ∀ (f : NotifPortField) (v : UInt64) {k : Unit → FbucProg UInt64},
        f ≠ .asnyc_ref64 → (f = .port → v = port) → Steadily image calls m₀ (k ()) →
        Steadily image calls m₀ (Prog.call (FbucOp.store (.notif_ports type f) v) k) := by
      intro f v k hf hv hk
      refine steadily_call (inBounds_some rfl htype) trivial (fun m _ m' hm hr => ?_) fun _ => hk
      rw [show m' = _ from hr]
      exact hm.store_front htype hf fun hport => Or.inr ⟨ref, hv hport ▸ hcall⟩
    rw [if_neg (UInt64.not_le.mpr htype)]
    exact hstore .type type nofun nofun (hstore .port port nofun (fun _ => rfl)
      (hstore .ref ref nofun nofun (steadily_return 0)))
  · rw [if_pos (UInt64.not_lt.mp htype)]
    exact steadily_cancel

theorem initWithTask_steadily {task sid type : UInt64}
    (hcall : calls (.fbuc_initWithTask task sid type)) :
    Steadily image calls m₀ (fbuc_initWithTask task sid type) := by
  refine steadily_call (quiet_store_task task).inBounds trivial (fun m _ m' hm hr => ?_) fun _ => ?_
  · rw [show m' = _ from hr]
    exact hm.store_task (Or.inr ⟨sid, type, hcall⟩)
  · exact steadily_silent _ rfl (fun _ h => h) trivial fun v => steadily_return v

/-- **One virtual call among others.** -/
theorem VirtualCall.run_steadily {c : VirtualCall} (hcall : calls c) (hbounded : c.Bounded) :
    Steadily image calls m₀ (c.run image) := by
  cases c with
  | fbuc_start =>
      have hstart : (VirtualCall.fbuc_start).run image = startFrom image installs := fbuc_start_eq
      rw [hstart]
      exact startFrom_steadily installs installs_settled
  | fbuc_initWithTask task sid type => exact initWithTask_steadily hcall
  | fbuc_registerNotificationPort port type ref => exact registerNotificationPort_steadily hcall
  | fbuc_externalMethod selector args => exact externalMethod_steadily hcall hbounded

end Functions

/-! ## Every interleaving -/

section Threads

variable {T : Type} [DecidableEq T] {image : Image} {calls : VirtualCall → Prop} {m₀ m : Mem}

/-- What the threads run: each of them one of the calls. -/
def Starts (image : Image) (calls : VirtualCall → Prop) (p : FbucProg UInt64) : Prop :=
  ∃ c, calls c ∧ p = c.run image

/-- **The user client under concurrency.** From any object that has been started, any number
of threads make virtual calls on it, and their operations mix in any order. The table is kept,
the operations stay inside `notif_ports` and do only what was asked for, in every interleaving,
if and only if all the calls are bounded. -/
theorem threads_guarded_iff [Nonempty T] (halloc : Allocated m₀)
    (hstart : Reach (code image) boundedEnv .allocated m₀ (ret .started) m) :
    (∀ c : Config FbucOp FbucRes UInt64 Mem T,
      Reachable (fun _ => env) (Starts image calls) (fun _ _ _ => True) m c →
      TableKept image c.shared ∧
        ∀ t p, c.threads t = some p →
          InBounds p.next ∧ Lawful calls m p.next)
      ↔ ∀ call, calls call → call.Bounded := by
  have hkept : TableKept image m := kept_of_started halloc hstart
  constructor
  · intro h call hcall
    obtain ⟨t⟩ := ‹Nonempty T›
    -- one call alone already needs its bound
    have halone : Always env (Safe image) (fun _ _ => True) (call.run image) m :=
      always_of_reachable (T := T) (fun c hc t p hp => ⟨((h c hc).2 t p hp).1, (h c hc).1⟩) t
        ⟨call, hcall, rfl⟩
    exact (call.run_safe_iff hkept).mp
      (halone.mono (fun _ _ hsafe => hsafe) fun _ _ hsafe _ => hsafe.2)
  · intro hbounded c hc
    have hall := hc.steady (G := Kept image calls m) (I := Guarded image calls m)
      (kept_start hkept) fun p hp => by
        obtain ⟨call, hcall, rfl⟩ := hp
        exact call.run_steadily hcall (hbounded call hcall)
    exact ⟨hall.1.table, fun t p hp => ⟨(hall.2 t p hp).1.1, (hall.2 t p hp).2⟩⟩

/-- A port is registered for type 1, and the notifications of type 1 are enabled. -/
def typeOneCalls (call : VirtualCall) : Prop :=
  call = .fbuc_registerNotificationPort 5 1 0 ∨ call = enableCall 1

/-- Any number of threads that make one of the two. -/
theorem threads_guarded_iff_two : (∀ call, typeOneCalls call → call.Bounded) ∧
    ∀ c : Config FbucOp FbucRes UInt64 Mem ℕ,
      Reachable (fun _ => env) (Starts exampleImage typeOneCalls) (fun _ _ _ => True) startedMem c →
      TableKept exampleImage c.shared ∧
        ∀ t p, c.threads t = some p →
          InBounds p.next ∧ Lawful typeOneCalls startedMem p.next := by
  have hbounded : ∀ call, typeOneCalls call → call.Bounded := by
    rintro call (rfl | rfl)
    · trivial
    · exact ⟨fun _ _ => by decide, fun h => absurd h (by decide)⟩
  have hstart : Reach (code exampleImage) boundedEnv .allocated (fun _ => 0) (ret .started)
      startedMem :=
    Reach.drive (serve_boundedEnv (c := .fbuc_start) trivial) 1 Reach.start (drive_allocated _)
  exact ⟨hbounded, (threads_guarded_iff (fun _ _ _ => rfl) hstart).mpr hbounded⟩

end Threads

end XnuQemuTools.Fbuc

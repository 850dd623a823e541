/-
Which port a notification goes to.

A port is registered, notifications are enabled and results are sent by three calls that
do not look at each other. `Slots` is what they amount to: the port registered for each
type, the last enabling of each type with the port as it was then, and the sends. `notify`
runs any sequence of the calls, and `notify_sends` says that what is sent is what `Slots`
says, whatever IOKit writes into the arrays: the reference in use is the one built by the
last call that enabled the type, from the port that was registered at the time. There may
have been none, and another may have been registered since.

IOKit builds a reference out of its arguments, in a way that is its own. So `World` keeps
for every call of `setAsyncReference64` the bytes it left, and for every send the bytes it
was given, and a reference is known by its place among those that were built.
-/
import XnuQemuTools.FbucPorts
import Mathlib.Data.List.Forall2
import Mathlib.Logic.Function.Basic

set_option autoImplicit false

namespace XnuQemuTools.Fbuc

open Calls Calls.Prog Memory

/-! ## The calls -/

/-- The calls that have to do with notifications. -/
inductive NotifyCall where
  | fbuc_registerNotificationPort (port type ref : UInt64)
  | fbuc_ext_meth_enable_notifications (args : IOExternalMethodArguments)
  | fbuc_ext_meth_change_frame_info (args : IOExternalMethodArguments)

/-- The index into `notif_ports`. -/
def NotifyCall.type : NotifyCall → UInt64
  | .fbuc_registerNotificationPort _ type _ => type
  | .fbuc_ext_meth_enable_notifications args => args.scalarInput 2
  | .fbuc_ext_meth_change_frame_info args => args.scalarInput 0

def NotifyCall.run : NotifyCall → FbucProg UInt64
  | .fbuc_registerNotificationPort port type ref => Fbuc.fbuc_registerNotificationPort port type ref
  | .fbuc_ext_meth_enable_notifications args => Fbuc.fbuc_ext_meth_enable_notifications args
  | .fbuc_ext_meth_change_frame_info args => Fbuc.fbuc_ext_meth_change_frame_info args

/-- Calls, one after the other. -/
def notify : List NotifyCall → FbucProg Unit
  | [] => pure ()
  | c :: cs => do
      let _ ← c.run
      notify cs

/-! ## What they amount to -/

/-- A call that enabled notifications: how many did before it, the port that was
registered, and its callback and reference. -/
structure Enabled where
  call : ℕ
  port : Option UInt64
  callback : UInt64
  reference : UInt64
  deriving DecidableEq

/-- A send: the port registered at the time, and the call that enabled its type. -/
structure Send where
  port : Option UInt64
  used : Option Enabled
  deriving DecidableEq

structure Slots where
  port : UInt64 → Option UInt64 := fun _ => none
  enabled : UInt64 → Option Enabled := fun _ => none
  enables : ℕ := 0
  sends : List Send := []

def Slots.step (s : Slots) : NotifyCall → Slots
  | .fbuc_registerNotificationPort port type _ =>
      { s with port := Function.update s.port type (some port) }
  | .fbuc_ext_meth_enable_notifications args =>
      let type := args.scalarInput 2
      { s with
        enabled := Function.update s.enabled type
          (some ⟨s.enables, s.port type, args.scalarInput 0, args.scalarInput 1⟩)
        enables := s.enables + 1 }
  | .fbuc_ext_meth_change_frame_info args =>
      let type := args.scalarInput 0
      { s with sends := s.sends ++ [⟨s.port type, s.enabled type⟩] }

/-- After a sequence of calls. -/
def Slots.after (s : Slots) (cs : List NotifyCall) : Slots := cs.foldl Slots.step s

/-! ## What is known of IOKit -/

/-- The bytes of a place. -/
def bytes (p : Place) (m : Mem) : List UInt8 :=
  (List.range p.size).map fun j => m ((p.offset + j) % 2 ^ 64)

/-- A reference that was built, and the bytes of the array it was built in. -/
structure Built where
  port : UInt64
  callback : UInt64
  reference : UInt64
  task : UInt64
  array : List UInt8
  deriving DecidableEq

/-- The memory, the references that were built, and the arrays that results were sent
with. -/
structure World where
  mem : Mem
  built : List Built
  sent : List (List UInt8)

/-- The world after an operation that leaves the memory `m`. -/
def World.log (w : World) (m : Mem) : FbucOp → World
  | .IOUserClient_setAsyncReference64 aref port cb ref task =>
      ⟨m, w.built ++ [⟨port, cb, ref, task, bytes aref m⟩], w.sent⟩
  | .IOUserClient_sendAsyncResult64 aref _ _ => ⟨m, w.built, w.sent ++ [bytes aref w.mem]⟩
  | _ => ⟨m, w.built, w.sent⟩

/-- What surrounds the object, with the logs. -/
def notifyEnv : Env FbucOp FbucRes World :=
  fun op w r w' => env op w.mem r w'.mem ∧ w' = w.log w'.mem op

/-- The array is the one that a call made, or untouched if there was none. -/
def Uses (built : List Built) : Option Enabled → List UInt8 → Prop
  | none, array => array = List.replicate 64 0
  | some e, array => ∃ task,
      built[e.call]? = some ⟨e.port.getD 0, e.callback, e.reference, task, array⟩

/-- `notif_ports` as the allocation left it. -/
def Fresh (m : Mem) : Prop := ∀ a, 8 ≤ a → a < 712 → m a = 0

/-- The memory and the logs are those of `s`. -/
structure Agrees (s : Slots) (w : World) : Prop where
  port : ∀ t, t < FBUC_MAX_NOTIF_PORTS →
    Words.load w.mem (Place.notif_ports t .port).offset 8 = ((s.port t).getD 0).toNat
  array : ∀ t, t < FBUC_MAX_NOTIF_PORTS →
    Uses w.built (s.enabled t) (bytes (.notif_ports t .asnyc_ref64) w.mem)
  enables : w.built.length = s.enables
  sends : List.Forall₂ (fun (x : Send) array => Uses w.built x.used array) s.sends w.sent

section Notify

variable {s : Slots} {w w' : World} {m m' : Mem} {t t' : UInt64}

theorem bytes_congr {p : Place} (h : ∀ a, p.Covers a → m' a = m a) : bytes p m' = bytes p m := by
  refine List.map_congr_left fun j hj => h _ ⟨j, List.mem_range.mp hj, rfl⟩

theorem Uses.append {built : List Built} {e : Option Enabled} {array : List UInt8}
    (h : Uses built e array) (b : Built) : Uses (built ++ [b]) e array := by
  cases e with
  | none => exact h
  | some e =>
      obtain ⟨task, hget⟩ := h
      obtain ⟨hlt, -⟩ := List.getElem?_eq_some_iff.mp hget
      exact ⟨task, by rw [List.getElem?_append_left hlt]; exact hget⟩

/-- Where the array of a type is. -/
theorem covers_array (ht : t < FBUC_MAX_NOTIF_PORTS) {a : ℕ} :
    (Place.notif_ports t .asnyc_ref64).Covers a
      ↔ 32 + 88 * t.toNat ≤ a ∧ a < 96 + 88 * t.toNat := by
  obtain ⟨hoffset, hend⟩ := offset_notif_ports ht .asnyc_ref64
  have hfield : NotifPortField.asnyc_ref64.offset = 24 := rfl
  have hsize : NotifPortField.asnyc_ref64.size = 64 := rfl
  have hplace : (Place.notif_ports t .asnyc_ref64).size = 64 := rfl
  rw [hfield] at hoffset
  rw [hsize] at hend
  rw [Place.Covers, hplace]
  constructor
  · rintro ⟨j, hj, rfl⟩
    rw [Nat.mod_eq_of_lt (by omega)]
    omega
  · intro ha
    exact ⟨a - (32 + 88 * t.toNat), by omega, by rw [Nat.mod_eq_of_lt (by omega)]; omega⟩

theorem toNat_ne (h : t' ≠ t) : t'.toNat ≠ t.toNat := fun he => h (UInt64.toNat_inj.mp he)

theorem offset_port (ht : t < FBUC_MAX_NOTIF_PORTS) :
    (Place.notif_ports t .port).offset = 24 + 88 * t.toNat := by
  have hoffset := (offset_notif_ports ht .port).1
  have hfield : NotifPortField.port.offset = 16 := rfl
  omega

/-- What happens to one array leaves the other types as they are. -/
theorem Agrees.of_array (h : Agrees s w) (ht : t < FBUC_MAX_NOTIF_PORTS)
    (hmem : ∀ a, ¬ (Place.notif_ports t .asnyc_ref64).Covers a → m' a = w.mem a) :
    (∀ t', t' < FBUC_MAX_NOTIF_PORTS →
      Words.load m' (Place.notif_ports t' .port).offset 8 = ((s.port t').getD 0).toNat) ∧
      ∀ t', t' < FBUC_MAX_NOTIF_PORTS → t' ≠ t →
        Uses w.built (s.enabled t') (bytes (.notif_ports t' .asnyc_ref64) m') := by
  constructor
  · intro t' ht'
    rw [← h.port t' ht', offset_port ht']
    refine Words.load_congr 8 _ fun a ha hlt => hmem a fun hc => ?_
    have hrange := (covers_array ht).mp hc
    omega
  · intro t' ht' hne
    have hdiff := toNat_ne hne
    have hsame : bytes (.notif_ports t' .asnyc_ref64) m'
        = bytes (.notif_ports t' .asnyc_ref64) w.mem := by
      refine bytes_congr fun a ha => hmem a fun hc => ?_
      have hrange := (covers_array ht).mp hc
      have hrange' := (covers_array ht').mp ha
      omega
    rw [hsame]
    exact h.array t' ht'

/-- The fields in front of the array. -/
theorem front_field {f : NotifPortField} (hf : f ≠ .asnyc_ref64) :
    f.size = 8 ∧ f.offset % 8 = 0 ∧ f.offset ≤ 16 ∧ (f ≠ .port → f.offset ≠ 16) := by
  cases f with
  | type => exact ⟨rfl, rfl, by decide, fun _ => by decide⟩
  | ref => exact ⟨rfl, rfl, by decide, fun _ => by decide⟩
  | port => exact ⟨rfl, rfl, le_rfl, fun h => absurd rfl h⟩
  | asnyc_ref64 => exact absurd rfl hf

/-- A store into one of them leaves the arrays alone, and every port but the one it is a
store of. -/
theorem front_store (ht : t < FBUC_MAX_NOTIF_PORTS) {f : NotifPortField} (hf : f ≠ .asnyc_ref64)
    (v : ℕ) :
    (∀ t', t' < FBUC_MAX_NOTIF_PORTS →
      bytes (.notif_ports t' .asnyc_ref64) (Words.store m (Place.notif_ports t f).offset f.size v)
        = bytes (.notif_ports t' .asnyc_ref64) m) ∧
      ∀ t', t' < FBUC_MAX_NOTIF_PORTS → t' ≠ t ∨ f ≠ .port →
        Words.load (Words.store m (Place.notif_ports t f).offset f.size v)
            (Place.notif_ports t' .port).offset 8
          = Words.load m (Place.notif_ports t' .port).offset 8 := by
  obtain ⟨hoffset, -⟩ := offset_notif_ports ht f
  obtain ⟨hsize, hword, hfront, hport⟩ := front_field hf
  constructor
  · intro t' ht'
    refine bytes_congr fun a ha => Words.store_outside ?_
    have hrange := (covers_array ht').mp ha
    omega
  · intro t' ht' hother
    have hplace := offset_port ht'
    refine Words.load_store_of_disjoint ?_
    rcases hother with hne | hne
    · have hdiff := toNat_ne hne
      omega
    · have hgap := hport hne
      omega

/-! ## One call -/

/-- The three stores of a registration. -/
def registered (port type ref : UInt64) (m : Mem) : Mem :=
  Words.store (Words.store (Words.store m (Place.notif_ports type .type).offset 8 type.toNat)
    (Place.notif_ports type .port).offset 8 port.toNat)
    (Place.notif_ports type .ref).offset 8 ref.toNat

theorem registered_array (ht : t < FBUC_MAX_NOTIF_PORTS) (port ref : UInt64)
    (ht' : t' < FBUC_MAX_NOTIF_PORTS) :
    bytes (.notif_ports t' .asnyc_ref64) (registered port t ref m)
      = bytes (.notif_ports t' .asnyc_ref64) m :=
  ((front_store ht (f := .ref) nofun _).1 t' ht').trans
    (((front_store ht (f := .port) nofun _).1 t' ht').trans
      ((front_store ht (f := .type) nofun _).1 t' ht'))

theorem registered_port (ht : t < FBUC_MAX_NOTIF_PORTS) (port ref : UInt64)
    (ht' : t' < FBUC_MAX_NOTIF_PORTS) :
    Words.load (registered port t ref m) (Place.notif_ports t' .port).offset 8
      = if t' = t then port.toNat else Words.load m (Place.notif_ports t' .port).offset 8 := by
  have href := (front_store (m := Words.store (Words.store m (Place.notif_ports t .type).offset 8
    t.toNat) (Place.notif_ports t .port).offset 8 port.toNat) ht (f := .ref) nofun
    ref.toNat).2 t' ht' (Or.inr nofun)
  refine href.trans ?_
  by_cases hsame : t' = t
  · subst hsame
    rw [if_pos rfl, Words.load_store_self]
    exact Nat.mod_eq_of_lt port.toNat_lt
  · rw [if_neg hsame]
    exact ((front_store ht (f := .port) nofun _).2 t' ht' (Or.inl hsame)).trans
      ((front_store ht (f := .type) nofun _).2 t' ht' (Or.inl hsame))

theorem register_agrees (h : Agrees s w) (port ref : UInt64) (ht : t < FBUC_MAX_NOTIF_PORTS) :
    Always notifyEnv (fun _ _ => True)
      (fun _ w' => Agrees (s.step (.fbuc_registerNotificationPort port t ref)) w')
      (fbuc_registerNotificationPort port t ref) w := by
  rw [fbuc_registerNotificationPort, if_neg (UInt64.not_le.mpr ht)]
  refine always_call.mpr ⟨trivial, fun _ w₁ h₁ => ?_⟩
  refine always_call.mpr ⟨trivial, fun _ w₂ h₂ => ?_⟩
  refine always_call.mpr ⟨trivial, fun _ w₃ h₃ => always_ret.mpr ⟨trivial, ?_⟩⟩
  have hmem : w₃.mem = registered port t ref w.mem := by
    rw [show w₃.mem = _ from h₃.1, show w₂.mem = _ from h₂.1, show w₁.mem = _ from h₁.1]
    rfl
  -- none of the stores is logged
  obtain ⟨hbuilt, hsent⟩ : w₃.built = w.built ∧ w₃.sent = w.sent := by
    rw [h₃.2, h₂.2, h₁.2]
    exact ⟨rfl, rfl⟩
  refine ⟨fun t' ht' => ?_, fun t' ht' => ?_, ?_, ?_⟩
  · rw [hmem, registered_port ht port ref ht']
    show _ = ((Function.update s.port t (some port) t').getD 0).toNat
    by_cases hsame : t' = t
    · subst hsame
      rw [if_pos rfl, Function.update_self]
      rfl
    · rw [if_neg hsame, Function.update_of_ne hsame]
      exact h.port t' ht'
  · rw [hmem, hbuilt, registered_array ht port ref ht']
    exact h.array t' ht'
  · rw [hbuilt]
    exact h.enables
  · rw [hbuilt, hsent]
    exact h.sends

theorem Agrees.sends_append (h : Agrees s w) (b : Built) :
    List.Forall₂ (fun (x : Send) array => Uses (w.built ++ [b]) x.used array) s.sends w.sent :=
  h.sends.imp fun _ _ hu => hu.append b

theorem enable_agrees (h : Agrees s w) (args : IOExternalMethodArguments)
    (ht : args.scalarInput 2 < FBUC_MAX_NOTIF_PORTS) :
    Always notifyEnv (fun _ _ => True)
      (fun _ w' => Agrees (s.step (.fbuc_ext_meth_enable_notifications args)) w')
      (fbuc_ext_meth_enable_notifications args) w := by
  refine always_call.mpr ⟨trivial, ?_⟩
  rintro port w₁ ⟨⟨hport, hm₁⟩, hlog₁⟩
  refine always_call.mpr ⟨trivial, ?_⟩
  rintro task w₂ ⟨⟨-, hm₂⟩, hlog₂⟩
  refine always_call.mpr ⟨trivial, ?_⟩
  rintro _ w₃ ⟨hm₃, hlog₃⟩
  refine always_ret.mpr ⟨trivial, ?_⟩
  have hmem : w₂.mem = w.mem := hm₂.trans hm₁
  obtain ⟨hbuilt, hquiet⟩ : w₂.built = w.built ∧ w₂.sent = w.sent := by
    rw [hlog₂, hlog₁]
    exact ⟨rfl, rfl⟩
  have hb₃ : w₃.built = w₂.built ++ [⟨port, args.scalarInput 0, args.scalarInput 1, task,
      bytes (.notif_ports (args.scalarInput 2) .asnyc_ref64) w₃.mem⟩] := congrArg World.built hlog₃
  have hs₃ : w₃.sent = w₂.sent := by
    rw [hlog₃]
    rfl
  have hsent : w₃.sent = w.sent := hs₃.trans hquiet
  have hvalue : port = (s.port (args.scalarInput 2)).getD 0 := by
    rw [hport]
    exact (congrArg UInt64.ofNat (h.port _ ht)).trans (UInt64.ofNat_toNat)
  rw [hbuilt, hvalue] at hb₃
  rw [hmem] at hm₃
  obtain ⟨hports, harrays⟩ := h.of_array ht hm₃
  refine ⟨hports, fun t' ht' => ?_, ?_, ?_⟩
  · rw [hb₃]
    show Uses _ (Function.update s.enabled (args.scalarInput 2) (some _) t') _
    by_cases hsame : t' = args.scalarInput 2
    · rw [hsame, Function.update_self, Uses, ← h.enables]
      exact ⟨task, List.getElem?_concat_length⟩
    · rw [Function.update_of_ne hsame]
      exact (harrays t' ht' hsame).append _
  · rw [hb₃, List.length_append, h.enables]
    rfl
  · rw [hb₃, hsent]
    exact h.sends_append _

theorem change_agrees (h : Agrees s w) (args : IOExternalMethodArguments)
    (ht : args.scalarInput 0 < FBUC_MAX_NOTIF_PORTS) :
    Always notifyEnv (fun _ _ => True)
      (fun _ w' => Agrees (s.step (.fbuc_ext_meth_change_frame_info args)) w')
      (fbuc_ext_meth_change_frame_info args) w := by
  refine always_call.mpr ⟨trivial, ?_⟩
  rintro _ w₁ ⟨hmem, hlog⟩
  have hmem' : w₁.mem = w.mem := hmem
  obtain ⟨hbuilt, hsent⟩ : w₁.built = w.built ∧ w₁.sent
      = w.sent ++ [bytes (.notif_ports (args.scalarInput 0) .asnyc_ref64) w.mem] := by
    rw [hlog]
    exact ⟨rfl, rfl⟩
  refine always_ret.mpr ⟨trivial, ?_⟩
  refine ⟨fun t' ht' => ?_, fun t' ht' => ?_, ?_, ?_⟩
  · rw [hmem']
    exact h.port t' ht'
  · rw [hmem', hbuilt]
    exact h.array t' ht'
  · rw [hbuilt]
    exact h.enables
  · rw [hbuilt, hsent]
    exact List.rel_append h.sends (.cons (h.array _ ht) .nil)

theorem NotifyCall.run_agrees (h : Agrees s w) (c : NotifyCall)
    (hc : c.type < FBUC_MAX_NOTIF_PORTS) :
    Always notifyEnv (fun _ _ => True) (fun _ w' => Agrees (s.step c) w') c.run w := by
  cases c with
  | fbuc_registerNotificationPort port type ref => exact register_agrees h port ref hc
  | fbuc_ext_meth_enable_notifications args => exact enable_agrees h args hc
  | fbuc_ext_meth_change_frame_info args => exact change_agrees h args hc

/-! ## Any sequence of calls -/

theorem notify_agrees (cs : List NotifyCall) :
    ∀ (s : Slots) (w : World), (∀ c ∈ cs, c.type < FBUC_MAX_NOTIF_PORTS) → Agrees s w →
      Always notifyEnv (fun _ _ => True) (fun _ w' => Agrees (s.after cs) w') (notify cs) w := by
  induction cs with
  | nil => exact fun s w _ h => always_ret.mpr ⟨trivial, h⟩
  | cons c cs ih =>
      intro s w hcs h
      have hc := hcs c List.mem_cons_self
      have hrest : ∀ c ∈ cs, c.type < FBUC_MAX_NOTIF_PORTS :=
        fun c' hc' => hcs c' (List.mem_cons_of_mem c hc')
      refine always_bind _ _ w ?_
      exact (NotifyCall.run_agrees h c hc).mono (fun _ _ _ => trivial)
        fun _ w' _ hw' => ih (s.step c) w' hrest hw'

/-- `fbuc_start` installs its table behind the ports. -/
theorem start_fresh {image : Image} (halloc : Allocated m) :
    Always env (fun _ _ => True) (fun _ m' => Fresh m') (fbuc_start image) m := by
  have hinstall : ∀ es : List Install,
      (∀ e ∈ es, installOf e.index = some e ∧ e.index < FBUC_MAX_EXT_FUNCS) →
      ∀ m : Mem, Fresh m →
        Always env (fun _ _ => True) (fun _ m' => Fresh m') (startFrom image es) m := by
    intro es
    induction es with
    | nil =>
        intro _ m hm
        refine always_call.mpr ⟨trivial, fun _ m' hm' => always_ret.mpr ⟨trivial, ?_⟩⟩
        obtain rfl : m' = m := hm'
        exact hm
    | cons e es ih =>
        intro hes m hm
        have hindex := (hes e List.mem_cons_self).2
        refine always_bind _ _ m (install_always hindex (fun _ _ => trivial) ?_)
        refine ih (fun e' he' => hes e' (List.mem_cons_of_mem e he')) _ fun a ha hlt => ?_
        rw [installed_outside hindex (by omega)]
        exact hm a ha hlt
  have hfresh : Fresh m := fun a ha hlt =>
    halloc a ha (Nat.lt_trans hlt (by decide : 712 < sizeofMembers))
  rw [fbuc_start_eq]
  exact hinstall installs installs_settled m hfresh

theorem fresh_agrees (h : Fresh m) : Agrees {} ⟨m, [], []⟩ where
  port t' ht' := by
    have hplace := offset_port ht'
    have hlt : t'.toNat < 8 := UInt64.lt_iff_toNat_lt.mp ht'
    exact Words.load_zero 8 _ fun a ha hn => h a (by omega) (by omega)
  array t' ht' := by
    have hlt : t'.toNat < 8 := UInt64.lt_iff_toNat_lt.mp ht'
    refine List.eq_replicate_of_mem (a := 0) (l := bytes _ m) fun b hb => ?_
    obtain ⟨j, hj, rfl⟩ := List.mem_map.mp hb
    have hrange := (covers_array ht').mp ⟨j, List.mem_range.mp hj, rfl⟩
    exact h _ (by omega) (by omega)
  enables := rfl
  sends := .nil

/-- Whatever calls are made on an object, in whatever order: what is sent is the reference
that the last call built that enabled the type, from the port registered at that call, or
zeros if none did. -/
theorem notify_sends (hfresh : Fresh m) (cs : List NotifyCall)
    (hcs : ∀ c ∈ cs, c.type < FBUC_MAX_NOTIF_PORTS) :
    Always notifyEnv (fun _ _ => True)
      (fun _ w => List.Forall₂ (fun (x : Send) array => Uses w.built x.used array)
        (Slots.after {} cs).sends w.sent)
      (notify cs) ⟨m, [], []⟩ :=
  (notify_agrees cs {} _ hcs (fresh_agrees hfresh)).mono (fun _ _ h => h) fun _ _ _ h => h.sends

/-! ## What the sequence says -/

theorem after_append (s : Slots) (cs cs' : List NotifyCall) :
    s.after (cs ++ cs') = (s.after cs).after cs' := List.foldl_append

/-- The call enables type `t`. -/
def NotifyCall.Enables (t : UInt64) : NotifyCall → Prop
  | .fbuc_ext_meth_enable_notifications args => args.scalarInput 2 = t
  | _ => False

/-- The call registers a port for type `t`. -/
def NotifyCall.Registers (t : UInt64) : NotifyCall → Prop
  | .fbuc_registerNotificationPort _ type _ => type = t
  | _ => False

/-- What every call that is not `p` leaves alone, a sequence of such calls does. -/
theorem after_same {β : Type} (f : Slots → β) {p : NotifyCall → Prop}
    (hstep : ∀ (s : Slots) (c : NotifyCall), ¬ p c → f (s.step c) = f s) (cs : List NotifyCall) :
    ∀ s : Slots, (∀ c ∈ cs, ¬ p c) → f (s.after cs) = f s := by
  induction cs with
  | nil => exact fun s _ => rfl
  | cons c cs ih =>
      intro s hcs
      have hrest := ih (s.step c) fun c' hc' => hcs c' (List.mem_cons_of_mem c hc')
      exact hrest.trans (hstep s c (hcs c List.mem_cons_self))

theorem step_enabled_same (s : Slots) (c : NotifyCall) (hc : ¬ c.Enables t) :
    (s.step c).enabled t = s.enabled t := by
  cases c with
  | fbuc_ext_meth_enable_notifications args =>
      exact Function.update_of_ne (fun h => hc h.symm) _ _
  | _ => rfl

theorem step_port_same (s : Slots) (c : NotifyCall) (hc : ¬ c.Registers t) :
    (s.step c).port t = s.port t := by
  cases c with
  | fbuc_registerNotificationPort port type ref =>
      exact Function.update_of_ne (fun h => hc h.symm) _ _
  | _ => rfl

/-- A port is registered from its registration on to the next of its type. -/
theorem after_port (pre post : List NotifyCall) (port ref : UInt64)
    (hpost : ∀ c ∈ post, ¬ c.Registers t) :
    (s.after (pre ++ .fbuc_registerNotificationPort port t ref :: post)).port t = some port := by
  rw [after_append]
  exact (after_same (fun s => s.port t) step_port_same post _ hpost).trans (Function.update_self _ _ _)

/-- A reference is in use from its enabling on to the next of its type, with the port that
was registered when it was built. -/
theorem after_enabled (pre post : List NotifyCall) (args : IOExternalMethodArguments)
    (hpost : ∀ c ∈ post, ¬ c.Enables (args.scalarInput 2)) :
    (s.after (pre ++ .fbuc_ext_meth_enable_notifications args :: post)).enabled
        (args.scalarInput 2)
      = some ⟨(s.after pre).enables, (s.after pre).port (args.scalarInput 2),
          args.scalarInput 0, args.scalarInput 1⟩ := by
  rw [after_append]
  exact (after_same (fun s => s.enabled (args.scalarInput 2)) step_enabled_same post _ hpost).trans
    (Function.update_self _ _ _)

end Notify

/-! ## A port that is replaced -/

section Example

/-- IOKit as in `serve`, with the logs. -/
def notifyServe : Handler FbucOp FbucRes World :=
  fun op w => (serve .fbuc_start op w.mem).map fun x => (x.1, w.log x.2 op)

theorem log_mem (w : World) (m : Mem) (op : FbucOp) : (w.log m op).mem = m := by
  cases op <;> rfl

theorem notifyServe_env (op : FbucOp) (w : World) (r : FbucRes op) (w' : World)
    (h : notifyServe op w = some (r, w')) : notifyEnv op w r w' := by
  obtain ⟨x, hx, heq⟩ := Option.map_eq_some_iff.mp h
  obtain ⟨rfl, rfl⟩ := Prod.mk.inj heq
  rw [notifyEnv, log_mem]
  exact ⟨serve_env op w.mem x.1 x.2 hx, rfl⟩

/-- A send with a reference built from the port that is registered. -/
def Send.Current (x : Send) : Prop :=
  ∃ e p, x.used = some e ∧ e.port = some p ∧ x.port = some p

/-- Arguments that send to type `type`. -/
def sendArgs (type : UInt64) : IOExternalMethodArguments where
  scalarInput i := if i = 0 then type else 0
  scalarInputCount := 2
  structureInputSize := 0
  scalarOutputCount := 0
  structureOutputSize := 0

/-- Type 1 gets a port, is enabled, gets another port, and is sent to. -/
def replacedPort : List NotifyCall :=
  [.fbuc_registerNotificationPort 0x10 1 0,
    .fbuc_ext_meth_enable_notifications (enableArgs 1),
    .fbuc_registerNotificationPort 0x20 1 0,
    .fbuc_ext_meth_change_frame_info (sendArgs 1)]

theorem replacedPort_types : ∀ c ∈ replacedPort, c.type < FBUC_MAX_NOTIF_PORTS := by
  decide

theorem notify_sends_replaced :
    Always notifyEnv (fun _ _ => True)
      (fun _ w => List.Forall₂ (fun (x : Send) array => Uses w.built x.used array)
        (Slots.after {} replacedPort).sends w.sent)
      (notify replacedPort) ⟨fun _ => 0, [], []⟩ :=
  notify_sends (fun _ _ _ => rfl) replacedPort replacedPort_types

/-- The result goes to the port that was replaced. -/
theorem notify_sends_stale :
    (Slots.after {} replacedPort).sends
        = [⟨some 0x20, some ⟨0, some 0x10, 0, 0x4141414141414141⟩⟩] ∧
      ¬ ∀ (m : Mem) (cs : List NotifyCall), Fresh m →
        (∀ c ∈ cs, c.type < FBUC_MAX_NOTIF_PORTS) →
        Always notifyEnv (fun _ _ => True)
          (fun _ w => List.Forall₂ (fun (x : Send) array => x.Current ∧ Uses w.built x.used array)
            (Slots.after {} cs).sends w.sent)
          (notify cs) ⟨m, [], []⟩ := by
  have hsends : (Slots.after {} replacedPort).sends
      = [⟨some 0x20, some ⟨0, some 0x10, 0, 0x4141414141414141⟩⟩] := by decide
  refine ⟨hsends, fun hall => ?_⟩
  obtain ⟨w, hrun⟩ : ∃ w, exec notifyServe (notify replacedPort) ⟨fun _ => 0, [], []⟩
      = some ((), w) := ⟨_, rfl⟩
  have hpost := (hall (fun _ => 0) replacedPort (fun _ _ _ => rfl) replacedPort_types).exec
    notifyServe_env hrun
  rw [hsends] at hpost
  obtain ⟨array, _, hsend, -, -⟩ := List.forall₂_cons_left_iff.mp hpost
  obtain ⟨e, p, he, hold, hnew⟩ := hsend.1
  obtain rfl := Option.some.inj he
  exact absurd (Option.some.inj (hold.trans hnew.symm)) (by decide)

end Example

end XnuQemuTools.Fbuc

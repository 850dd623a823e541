/-
Requests of many clients on many block devices, interleaved call by call.

Each request moves every block in two calls through `dev_buf`, the one bounce
buffer of its device, and any other request may run between the two. What keeps
them apart is `lck_mtx`, taken by the first call of `doAsyncReadWrite` and given
back by its last (`prog_guarded`), and that no two devices were made for the same
file (`Devices.distinct`). `requests_serialisable` is `Reachable.serialisable` at
the system of these calls, together with what the one-at-a-time run is: by
`serial_requests` it is a byte array. `requests_all_served` says that it comes to
that: no order of the calls keeps a request waiting for ever.

The mutex is one per device here. If two devices' `lck_mtx` were the same mutex,
the runs would be some of these.
-/
import XnuQemuTools.BlockDevRefine
import XnuQemuTools.MonitorProgress

set_option autoImplicit false

namespace XnuQemuTools.BlockDev

open Calls Calls.Prog Memory Monitor

section Devices

variable {D T : Type} [DecidableEq D] [DecidableEq T]

/-! ## The devices and what they share -/

/-- The host's files and the bounce buffer of every device. -/
structure Host (D : Type) where
  files : UInt64 → Mem
  buffers : D → Mem

/-- Devices that `create_new_aleph_bdev` made for distinct files; `size i` is how
many bytes file `i` has. -/
structure Devices (D : Type) where
  index : D → UInt64
  size : UInt64 → ℕ
  members : D → AlephBDevMembers
  distinct : Function.Injective index
  bound : ∀ d, size (index d) < 2 ^ 63
  made : ∀ d, Made (index d) (Int64.ofNat (size (index d))) (members d)

/-- The host after file `i` has become `m`. -/
def Host.setFile (g : Host D) (i : UInt64) (m : Mem) : Host D :=
  { g with files := Function.update g.files i m }

/-- The host after the buffer of device `d` has become `m`. -/
def Host.setBuffer (g : Host D) (d : D) (m : Mem) : Host D :=
  { g with buffers := Function.update g.buffers d m }

/-- What a call does to the mutex. -/
def BdevOp.kind : BdevOp → Kind
  | .lck_mtx_lock _ => .acquire
  | .lck_mtx_unlock _ => .release
  | _ => .work

/-- A call on device `d`: host calls reach any file of the host, the copies use
the device's own buffer. -/
def act (size : UInt64 → ℕ) (d : D) :
    (op : BdevOp) → Host D → Client → Option (BdevRes op × Host D × Client)
  | .lck_mtx_lock m, g, c => some ((), g, c.note (.lck_mtx_lock m))
  | .lck_mtx_unlock m, g, c => some ((), g, c.note (.lck_mtx_unlock m))
  | .getDirection, g, c => some (c.direction, g, c.note .getDirection)
  | .qc_read_file length offset i, g, c =>
      if fits (size i) length offset then
        some (length.toInt64,
          g.setBuffer d (copy (g.buffers d) 0 (g.files i) offset.toNat length.toNat),
          c.note (.qc_read_file length offset i))
      else none
  | .qc_write_file length offset i, g, c =>
      if fits (size i) length offset then
        some (length.toInt64,
          g.setFile i (copy (g.files i) offset.toNat (g.buffers d) 0 length.toNat),
          c.note (.qc_write_file length offset i))
      else none
  | .readBytes offset length, g, c =>
      if length.toNat ≤ ALEPH_BDEV_BUFFER_SIZE then
        some (length, g.setBuffer d (copy (g.buffers d) 0 c.desc offset.toNat length.toNat),
          c.note (.readBytes offset length))
      else none
  | .writeBytes offset length, g, c =>
      if length.toNat ≤ ALEPH_BDEV_BUFFER_SIZE then
        some (length, g,
          { c with desc := copy c.desc offset.toNat (g.buffers d) 0 length.toNat }.note
            (.writeBytes offset length))
      else none
  | .completionAction a t q s n, g, c => some ((), g, c.note (.completionAction a t q s n))
  | .cancel, _, _ => none

/-- The calls the code of device `d` makes: on its own mutex and its own file. -/
def Devices.mayCall (devs : Devices D) (d : D) : BdevOp → Prop
  | .lck_mtx_lock m => m = (devs.members d).lck_mtx
  | .lck_mtx_unlock m => m = (devs.members d).lck_mtx
  | .qc_read_file _ _ i => i = devs.index d
  | .qc_write_file _ _ i => i = devs.index d
  | _ => True

/-- How many bytes device `d` has. -/
def Devices.bytes (devs : Devices D) (d : D) : ℕ := devs.size (devs.index d)

/-- What device `d` sees of the host: its file and its buffer. -/
def Devices.part (devs : Devices D) (d : D) (g : Host D) : Part :=
  ⟨g.files (devs.index d), g.buffers d⟩

theorem act_part (devs : Devices D) (d : D) (op : BdevOp) (g : Host D) (c : Client)
    (h : devs.mayCall d op) :
    (act devs.size d op g c).map (fun x => (x.1, devs.part d x.2.1, x.2.2))
      = serve (devs.index d) (devs.bytes d) op (devs.part d g, c) := by
  cases op with
  | qc_read_file length offset i =>
      -- the file it names is the device's own
      subst h
      simp only [act, serve, Devices.part, Devices.bytes, Host.setBuffer, true_and]
      split <;> simp
  | qc_write_file length offset i =>
      subst h
      simp only [act, serve, Devices.part, Devices.bytes, Host.setFile, true_and]
      split <;> simp
  | readBytes offset length =>
      simp only [act, serve, Devices.part, Host.setBuffer]
      split <;> simp
  | writeBytes offset length =>
      simp only [act, serve, Devices.part]
      split <;> simp
  | _ => rfl

/-- A call changes one buffer, its device's, and one file, its device's. -/
theorem act_changes (devs : Devices D) (d : D) (op : BdevOp) (g : Host D) (c : Client)
    (x : BdevRes op × Host D × Client) (h : devs.mayCall d op)
    (hact : act devs.size d op g c = some x) :
    (∀ i, i ≠ devs.index d → x.2.1.files i = g.files i)
      ∧ ∀ e, e ≠ d → x.2.1.buffers e = g.buffers e := by
  cases op with
  | qc_read_file length offset i =>
      obtain ⟨-, hx⟩ := Option.ite_none_right_eq_some.mp hact
      obtain rfl := Option.some.inj hx
      exact ⟨fun _ _ => rfl, fun e he => Function.update_of_ne he ..⟩
  | qc_write_file length offset i =>
      obtain ⟨-, hx⟩ := Option.ite_none_right_eq_some.mp hact
      obtain rfl := Option.some.inj hx
      subst h
      exact ⟨fun j hj => Function.update_of_ne hj .., fun _ _ => rfl⟩
  | readBytes offset length =>
      obtain ⟨-, hx⟩ := Option.ite_none_right_eq_some.mp hact
      obtain rfl := Option.some.inj hx
      exact ⟨fun _ _ => rfl, fun e he => Function.update_of_ne he ..⟩
  | writeBytes offset length =>
      obtain ⟨-, hx⟩ := Option.ite_none_right_eq_some.mp hact
      obtain rfl := Option.some.inj hx
      exact ⟨fun _ _ => rfl, fun _ _ => rfl⟩
  | cancel => cases hact
  | _ =>
      obtain rfl := Option.some.inj hact
      exact ⟨fun _ _ => rfl, fun _ _ => rfl⟩

/-- The devices under their mutexes. -/
def Devices.system (devs : Devices D) : System BdevOp BdevRes D (Host D) Part Client where
  kind := BdevOp.kind
  allowed := devs.mayCall
  act := act devs.size
  view := devs.part
  serve d := serve (devs.index d) (devs.bytes d)
  act_view := act_part devs
  act_frame d op g c x h hact e he := by
    obtain ⟨hfiles, hbuffers⟩ := act_changes devs d op g c x h hact
    unfold Devices.part
    rw [hfiles _ (devs.distinct.ne he), hbuffers e he]

/-- What clients submit: requests for blocks of the device's file. -/
def Devices.Submit (devs : Devices D) (d : D) (p : BdevProg UInt64) (c : Client) : Prop :=
  ∃ r : Request, r.InFile (devs.bytes d) ∧ p = r.prog (devs.members d) ∧ c = r.client

/-! ## A request is a critical section -/

section Guarded

variable {devs : Devices D} {d : D}

omit [DecidableEq D] in
theorem Devices.members_index (devs : Devices D) (d : D) :
    (devs.members d).qc_file_index = devs.index d := (devs.made d).fields.2.2

theorem cancel_working {α : Type} : Working devs.system d (cancel : BdevProg α) :=
  ⟨trivial, rfl, fun never => never.elim⟩

theorem readLoop_working (block : UInt64) (n : ℕ) :
    ∀ i bc : UInt64, Working devs.system d (readLoop (devs.members d) block n i bc) := by
  induction n with
  | zero => exact fun _ _ => trivial
  | succ n ih =>
      intro i bc
      rw [readLoop_succ]
      cases guardFires (devs.members d).size block i with
      | false =>
          rw [if_neg Bool.false_ne_true]
          exact ⟨devs.members_index d, rfl, fun _ => ⟨trivial, rfl, fun _ => ih _ _⟩⟩
      | true => exact cancel_working

theorem writeLoop_working (block : UInt64) (n : ℕ) :
    ∀ i bc : UInt64, Working devs.system d (writeLoop (devs.members d) block n i bc) := by
  induction n with
  | zero => exact fun _ _ => trivial
  | succ n ih =>
      intro i bc
      rw [writeLoop_succ]
      cases guardFires (devs.members d).size block i with
      | false =>
          rw [if_neg Bool.false_ne_true]
          exact ⟨trivial, rfl, fun _ => ⟨devs.members_index d, rfl, fun _ => ih _ _⟩⟩
      | true => exact cancel_working

/-- Whatever direction the descriptor reports, even one that makes the code cancel. -/
theorem transfer_working (block nblks direction : UInt64) :
    Working devs.system d (transfer (devs.members d) block nblks direction) := by
  unfold transfer
  split
  · exact readLoop_working block nblks.toNat 0 0
  · split
    · exact writeLoop_working block nblks.toNat 0 0
    · exact cancel_working

theorem complete_working (completion : Option Completion) (byte_count : UInt64) :
    Working devs.system d (complete completion byte_count) := by
  cases completion with
  | none => trivial
  | some c => exact ⟨trivial, rfl, fun _ => trivial⟩

/-- **A request holds the mutex from its first call to its last.** -/
theorem prog_guarded (r : Request) : Guarded devs.system d (r.prog (devs.members d)) := by
  -- lock, direction, transfer, completion, unlock
  refine ⟨_, _, rfl, rfl, rfl, fun _ => ?_⟩
  refine (inside_work rfl).mpr ⟨trivial, fun direction => ?_⟩
  refine (transfer_working r.block r.nblks direction).inside_bind fun byte_count => ?_
  refine (complete_working r.completion byte_count).inside_bind fun _ => ?_
  exact (inside_release rfl).mpr ⟨rfl, fun _ => ⟨0, rfl⟩⟩

theorem Devices.Submit.guarded {p : BdevProg UInt64} {c : Client} (h : devs.Submit d p c) :
    Guarded devs.system d p := by
  obtain ⟨r, -, rfl, -⟩ := h
  exact prog_guarded r

end Guarded

/-! ## Serialisability -/

/-- A state of the whole system. -/
abbrev State (D T : Type) : Type := Config BdevOp BdevRes UInt64 D (Host D) Client T

/-- Thread `t` was submitted to device `d` with request `r`. -/
def Serves (devs : Devices D) (c : State D T) (d : D) (t : T) (r : Request) : Prop :=
  r.InFile (devs.bytes d) ∧ ∃ th, c.threads t = some th ∧ th.dev = d
    ∧ th.start = r.prog (devs.members d) ∧ th.init = r.client

omit [DecidableEq D] [DecidableEq T] in
theorem jobs_of_serves {devs : Devices D} {c : State D T} {d : D} (ts : List T)
    (h : ∀ t ∈ ts, ∃ r, Serves devs c d t r) :
    ∃ rs, List.Forall₂ (Serves devs c d) ts rs ∧ (∀ r ∈ rs, r.InFile (devs.bytes d))
      ∧ c.jobs ts = rs.map fun r => (r.prog (devs.members d), r.client) := by
  induction ts with
  | nil => exact ⟨[], List.Forall₂.nil, List.forall_mem_nil _, rfl⟩
  | cons t ts ih =>
      obtain ⟨hhead, htail⟩ := List.forall_mem_cons.mp h
      obtain ⟨r, hr⟩ := hhead
      obtain ⟨rs, hrs, hin, hjobs⟩ := ih htail
      refine ⟨r :: rs, hrs.cons hr, List.forall_mem_cons.mpr ⟨hr.1, hin⟩, ?_⟩
      obtain ⟨-, th, hth, -, hstart, hinit⟩ := hr
      rw [List.map_cons, ← hjobs, ← hstart, ← hinit, Config.jobs, List.filterMap_cons, hth]
      rfl

/-- **Block device requests are serialisable.** Whenever no request is in progress,
each device has served its requests one at a time, in the order in which they took
its mutex: the same file, the same buffer, and for every request the same data in
its descriptor and the same calls, completion and byte count included. Each of
them was answered from the file as the earlier ones left it, and files without a
device are untouched. -/
theorem requests_serialisable (devs : Devices D) (g₀ : Host D) {c : State D T}
    (hc : Reachable devs.system devs.Submit g₀ c) (hidle : c.Idle) :
    (∀ d, (c.order d).Nodup ∧ (∀ t, t ∈ c.order d ↔ ∃ th, c.threads t = some th ∧ th.dev = d)
      ∧ serial (serve (devs.index d) (devs.bytes d)) (c.jobs (c.order d)) (devs.part d g₀)
          = some (devs.part d c.shared, c.locals (c.order d))
      ∧ ∃ rs, List.Forall₂ (Serves devs c d) (c.order d) rs
        ∧ c.shared.files (devs.index d) = replay (devs.bytes d) (g₀.files (devs.index d)) rs
        ∧ ∀ (k : ℕ) (t : T) (r : Request) th, (c.order d)[k]? = some t → rs[k]? = some r →
            c.threads t = some th →
            r.Answered (devs.members d) (devs.bytes d)
              (replay (devs.bytes d) (g₀.files (devs.index d)) (rs.take k)) th.loc)
    ∧ ∀ i, (∀ d, i ≠ devs.index d) → c.shared.files i = g₀.files i := by
  have hguarded : ∀ d p l, devs.Submit d p l → Guarded devs.system d p :=
    fun d p l h => h.guarded
  refine ⟨fun d => ?_, fun i hi => ?_⟩
  · obtain ⟨hserial, hnodup, hmem⟩ := hc.serialisable hguarded hidle d
    have hserves : ∀ t ∈ c.order d, ∃ r, Serves devs c d t r := by
      intro t ht
      obtain ⟨th, hth, rfl⟩ := (hmem t).mp ht
      obtain ⟨r, hin, hstart, hinit⟩ := hc.submitted t th hth
      exact ⟨r, hin, th, hth, rfl, hstart, hinit⟩
    obtain ⟨rs, hrs, hin, hjobs⟩ := jobs_of_serves (c.order d) hserves
    have hsized : Sized (devs.members d) (devs.index d) (devs.bytes d) :=
      (devs.made d).sized (devs.bound d)
    obtain ⟨p', cs, hrun, hfile, -, hall⟩ := serial_requests hsized rs (devs.part d g₀) hin
    -- the one-at-a-time run is the one that `serial_requests` describes
    have heq : some (devs.part d c.shared, c.locals (c.order d)) = some (p', cs) := by
      rw [← hjobs] at hrun
      exact hserial.symm.trans hrun
    obtain ⟨rfl, rfl⟩ := Prod.mk.inj (Option.some.inj heq)
    refine ⟨hnodup, hmem, hserial, rs, hrs, hfile, fun k t r th hk hr hth => ?_⟩
    have hthreads : ∀ u ∈ c.order d, ∃ thu, c.threads u = some thu := fun u hu =>
      ((hmem u).mp hu).imp fun _ h => h.1
    exact hall k r th.loc hr (locals_getElem? (c.order d) hthreads hk hth)
  · refine hc.kept hguarded (fun g => g.files i) fun d op g l x hallowed hact => ?_
    exact (act_changes devs d op g l x hallowed hact).1 i (hi d)

/-- Two devices of one block each. -/
def twoDisks : Devices Bool where
  index d := if d then 1 else 0
  size _ := 4096
  members d := newDevice (if d then 1 else 0) (Int64.ofNat 4096) 1 2
  distinct := by
    unfold Function.Injective
    decide
  bound _ := by decide
  made d := newDevice_made _ _ 1 2

/-- A read of the first block. -/
def firstBlock : Request := ⟨false, 0, 1, none, fun _ => 0⟩

/-- A write of nines to it. -/
def nines : Request := ⟨true, 0, 1, none, fun _ => 9⟩

/-- Files of sevens. -/
def sevens : Host Bool := ⟨fun _ _ => 7, fun _ _ => 0⟩

/-- A client writes to the first disk while another reads the second: each has filled the buffer
of its disk and holds its mutex when the other goes on. -/
theorem requests_serialisable_twoDisks :
    ∃ m c : State Bool ℕ, Reachable twoDisks.system twoDisks.Submit sevens m
      ∧ m.owner false = some 0 ∧ m.owner true = some 1
      ∧ Relation.ReflTransGen (Step twoDisks.system twoDisks.Submit) m c ∧ c.Idle
      ∧ c.order false = [0] ∧ c.order true = [1]
      ∧ ∀ d, serial (serve (twoDisks.index d) 4096) (c.jobs (c.order d)) (twoDisks.part d sevens)
        = some (twoDisks.part d c.shared, c.locals (c.order d)) := by
  have hwrite : twoDisks.Submit false (nines.prog (twoDisks.members false)) nines.client :=
    ⟨nines, Or.inr (by decide), rfl, rfl⟩
  have hread : twoDisks.Submit true (firstBlock.prog (twoDisks.members true)) firstBlock.client :=
    ⟨firstBlock, Or.inr (by decide), rfl, rfl⟩
  have hstart : Reachable twoDisks.system twoDisks.Submit sevens
      (Config.initial sevens : State Bool ℕ) := .refl
  have hsubmitted := (hstart.tail (.submit (t := 0) rfl hwrite)).tail (.submit (t := 1) rfl hread)
  have hlocked := (hsubmitted.tail (.acquire (t := 0) rfl rfl rfl rfl rfl)).tail
    (.acquire (t := 1) rfl rfl rfl rfl rfl)
  have hdirection := (hlocked.tail (.work (t := 1) rfl rfl rfl rfl)).tail
    (.work (t := 0) rfl rfl rfl rfl)
  have hfilled := (hdirection.tail (.work (t := 0) rfl rfl rfl rfl)).tail
    (.work (t := 1) rfl rfl rfl rfl)
  have hstay : ∀ {m : State Bool ℕ}, Reachable twoDisks.system twoDisks.Submit sevens m →
      Relation.ReflTransGen (Step twoDisks.system twoDisks.Submit) m m := fun _ => .refl
  have hmoved := ((hstay hfilled).tail (.work (t := 1) rfl rfl rfl rfl)).tail
    (.work (t := 0) rfl rfl rfl rfl)
  have hgiven := (hmoved.tail (.release (t := 0) rfl rfl rfl rfl)).tail
    (.release (t := 1) rfl rfl rfl rfl)
  refine ⟨_, _, hfilled, rfl, rfl, hgiven, ?idle, rfl, rfl, fun d =>
    ((requests_serialisable twoDisks sevens (hfilled.trans hgiven) ?idle).1 d).2.2.1⟩
  -- threads `0` and `1` have returned, and there are no others
  rintro (_ | _ | t) th hth
  · obtain rfl := Option.some.inj hth
    exact ⟨0, rfl⟩
  · obtain rfl := Option.some.inj hth
    exact ⟨0, rfl⟩
  · cases hth

/-! ## Every request is served -/

omit [DecidableEq T] in
/-- Alone, a request is served from whatever its device holds. -/
theorem Devices.ends (devs : Devices D) : Ends devs.system devs.Submit := by
  rintro d _ _ s ⟨r, hin, rfl, rfl⟩
  have hsized : Sized (devs.members d) (devs.index d) (devs.bytes d) :=
    (devs.made d).sized (devs.bound d)
  obtain ⟨buffer, cl, hrun, -⟩ := Request.prog_exec hsized hin s
  exact Option.isSome_iff_exists.mpr ⟨_, hrun⟩

/-- A request that holds the mutex is never stuck, and never cancels. -/
theorem request_progress (devs : Devices D) (g₀ : Host D) {c : State D T}
    (hc : Reachable devs.system devs.Submit g₀ c) {d : D} {t : T} (howner : c.owner d = some t) :
    ∃ th op k x, c.threads t = some th ∧ th.dev = d ∧ th.prog = call op k
      ∧ act devs.size d op c.shared th.loc = some x :=
  (hc.inv fun _ _ _ h => h.guarded).owner_answered howner
    fun th s hth hdev => devs.ends d _ _ s (hdev ▸ hc.submitted t th hth)

/-- **Every request is served, in whatever order the calls are made.** From any
state of the whole system, the requests submitted so far make finitely many calls,
and where none of them can make another one all have returned, each after taking
its device's mutex. -/
theorem requests_all_served (devs : Devices D) (g₀ : Host D) {c : State D T}
    (hc : Reachable devs.system devs.Submit g₀ c) :
    (¬ ∃ run : ℕ → State D T,
        run 0 = c ∧ ∀ n, Step devs.system Nobody (run n) (run (n + 1)))
      ∧ ∀ c', Relation.ReflTransGen (Step devs.system Nobody) c c' →
        (∀ c'', ¬ Step devs.system Nobody c' c'') →
        c'.Idle ∧ ∀ d t r, Serves devs c d t r → Serves devs c' d t r ∧ t ∈ c'.order d := by
  refine ⟨hc.no_endless_run, fun c' hsteps hlast => ?_⟩
  obtain ⟨hidle, hserved⟩ := hc.served (fun d p l h => h.guarded) devs.ends hsteps hlast
  refine ⟨hidle, fun d t r ⟨hin, th, hth, hdev, hstart, hinit⟩ => ⟨⟨hin, ?_⟩, ?_⟩⟩
  · obtain ⟨th', hth', hdev', hstart', hinit'⟩ := (sameThreads_of_steps hsteps).eq_some hth
    exact ⟨th', hth', hdev'.trans hdev, hstart'.trans hstart, hinit'.trans hinit⟩
  · exact hdev ▸ hserved t th hth

/-- Two clients of one disk: neither keeps the other waiting for ever. -/
theorem requests_all_served_two :
    ∃ c : State Bool ℕ, (∀ t < 2, Serves twoDisks c false t firstBlock)
      ∧ ∀ c', Relation.ReflTransGen (Step twoDisks.system Nobody) c c' →
        (∀ c'', ¬ Step twoDisks.system Nobody c' c'') →
        c'.Idle ∧ ∀ t < 2, t ∈ c'.order false := by
  have hin : firstBlock.InFile 4096 := Or.inr (by decide)
  have hsubmit : twoDisks.Submit false (firstBlock.prog (twoDisks.members false))
      firstBlock.client := ⟨_, hin, rfl, rfl⟩
  let c₀ : State Bool ℕ := Config.initial ⟨fun _ _ => 7, fun _ _ => 0⟩
  let c₁ := c₀.submit 0 false (firstBlock.prog (twoDisks.members false)) firstBlock.client
  let c₂ := c₁.submit 1 false (firstBlock.prog (twoDisks.members false)) firstBlock.client
  have hc : Reachable twoDisks.system twoDisks.Submit ⟨fun _ _ => 7, fun _ _ => 0⟩ c₂ :=
    (Relation.ReflTransGen.refl.tail (Step.submit rfl hsubmit)).tail (Step.submit rfl hsubmit)
  have hserves : ∀ t < 2, Serves twoDisks c₂ false t firstBlock := by
    intro t ht
    obtain rfl | rfl : t = 0 ∨ t = 1 := by omega
    · exact ⟨hin, _, rfl, rfl, rfl, rfl⟩
    · exact ⟨hin, _, rfl, rfl, rfl, rfl⟩
  refine ⟨c₂, hserves, fun c' hsteps hlast => ?_⟩
  obtain ⟨hidle, hall⟩ := (requests_all_served twoDisks _ hc).2 c' hsteps hlast
  exact ⟨hidle, fun t ht => (hall false t firstBlock (hserves t ht)).2⟩

end Devices

end XnuQemuTools.BlockDev

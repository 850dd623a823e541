/-
Programs that share state under a mutex, one mutex per device.

Any number of threads each run one program on one device. A step of the system
is one call of one thread; between two calls of a thread any other thread may
run. A program is `Guarded` when its first call takes the device's mutex, its
last one gives it back, and everything in between is an ordinary call.

The theorem is that this is enough: whatever the interleaving, the state in
which no thread is running any more is the one obtained by running, for each
device, the programs of its threads one after another in the order in which they
took the mutex (`Reachable.serialisable`). The proof is one invariant, `Inv`. While a thread
holds the mutex, what its program will do from here, run alone, is what the whole
program would have done run alone from the state in which it took the mutex; no
other thread can spoil that, because no other thread may touch this device.

A device sees only a part of the shared state (`view`). That a call of one device
leaves the parts of the others alone is `act_frame`; it is where the user of this
file has to say what keeps the devices apart.
-/
import XnuQemuTools.Calls
import Mathlib.Logic.Relation
import Mathlib.Logic.Function.Basic

set_option autoImplicit false

namespace XnuQemuTools.Monitor

open Calls Calls.Prog

/-! ## Running programs one after another -/

section Serial

variable {Op : Type} {Res : Op → Type} {α S L : Type}

/-- Run the programs in order, each from its own local state, handing the shared
state on; the final local states come back in the same order. -/
def serial (h : Handler Op Res (S × L)) : List (Prog Op Res α × L) → S → Option (S × List L)
  | [], s => some (s, [])
  | (p, l) :: rest, s =>
      (exec h p (s, l)).bind fun x => (serial h rest x.2.1).map fun y => (y.1, x.2.2 :: y.2)

@[simp] theorem serial_nil (h : Handler Op Res (S × L)) (s : S) :
    serial (α := α) h [] s = some (s, []) := rfl

theorem serial_cons {h : Handler Op Res (S × L)} {p : Prog Op Res α} {l l' : L} {s s' : S} {a : α}
    (hp : exec h p (s, l) = some (a, s', l')) (rest : List (Prog Op Res α × L)) :
    serial h ((p, l) :: rest) s = (serial h rest s').map fun y => (y.1, l' :: y.2) := by
  rw [serial, hp, Option.bind_some]

/-- One more program at the end. -/
theorem serial_concat {h : Handler Op Res (S × L)} (jobs : List (Prog Op Res α × L)) :
    ∀ {s s' s'' : S} {ls : List L} {p : Prog Op Res α} {l l' : L} {a : α},
      serial h jobs s = some (s', ls) → exec h p (s', l) = some (a, s'', l') →
      serial h (jobs ++ [(p, l)]) s = some (s'', ls ++ [l']) := by
  induction jobs with
  | nil =>
      intro s s' s'' ls p l l' a hjobs hp
      obtain ⟨rfl, rfl⟩ := Prod.mk.inj (Option.some.inj hjobs)
      rw [List.nil_append, serial_cons hp, serial_nil]
      rfl
  | cons job jobs ih =>
      intro s s' s'' ls p l l' a hjobs hp
      obtain ⟨q, m⟩ := job
      rw [serial, Option.bind_eq_some_iff] at hjobs
      obtain ⟨⟨b, t, m'⟩, hq, hrest⟩ := hjobs
      obtain ⟨⟨t', ms⟩, hms, heq⟩ := Option.map_eq_some_iff.mp hrest
      obtain ⟨rfl, rfl⟩ := Prod.mk.inj heq
      rw [List.cons_append, serial_cons hq, ih hms hp]
      rfl

end Serial

/-! ## The interleaved system -/

/-- What a call does to the mutex of its device. -/
inductive Kind where
  | acquire
  | release
  | work
  deriving DecidableEq

/-- Calls on a shared state `G`, of which device `d` sees the part `view d`. A
call that device `d` is `allowed` acts on that part as `serve d` says, and on no
other part. -/
structure System (Op : Type) (Res : Op → Type) (D G S L : Type) where
  kind : Op → Kind
  allowed : D → Op → Prop
  act : D → (op : Op) → G → L → Option (Res op × G × L)
  view : D → G → S
  serve : D → Handler Op Res (S × L)
  act_view : ∀ d op g l, allowed d op →
    (act d op g l).map (fun x => (x.1, view d x.2.1, x.2.2)) = serve d op (view d g, l)
  act_frame : ∀ d op g l x, allowed d op → act d op g l = some x →
    ∀ d', d' ≠ d → view d' x.2.1 = view d' g

section Interleaving

variable {Op : Type} {Res : Op → Type} {α D G S L T : Type}

/-- A thread: its device, the program it was submitted with and what is left of
it, its local state then and now. -/
structure Thread (Op : Type) (Res : Op → Type) (α D L : Type) where
  dev : D
  start : Prog Op Res α
  prog : Prog Op Res α
  init : L
  loc : L

/-- The system. `order d` records which threads took the mutex of `d`, oldest
first; no step reads it. -/
structure Config (Op : Type) (Res : Op → Type) (α D G L T : Type) where
  shared : G
  owner : D → Option T
  order : D → List T
  threads : T → Option (Thread Op Res α D L)

/-- What is left of a program while its thread holds the mutex of `d`. -/
def Inside (M : System Op Res D G S L) (d : D) : Prog Op Res α → Prop
  | ret _ => False
  | call op k =>
      M.allowed d op ∧
        match M.kind op with
        | .acquire => False
        | .release => ∀ r, ∃ a, k r = ret a
        | .work => ∀ r, Inside M d (k r)

/-- A program that takes the mutex of `d` first and gives it back last. -/
def Guarded (M : System Op Res D G S L) (d : D) (p : Prog Op Res α) : Prop :=
  ∃ op k, p = call op k ∧ M.kind op = .acquire ∧ M.allowed d op ∧ ∀ r, Inside M d (k r)

/-- Every call of the program is an ordinary one of device `d`. -/
def Working (M : System Op Res D G S L) (d : D) : Prog Op Res α → Prop
  | ret _ => True
  | call op k => M.allowed d op ∧ M.kind op = .work ∧ ∀ r, Working M d (k r)

theorem inside_work {M : System Op Res D G S L} {d : D} {op : Op} {k : Res op → Prog Op Res α}
    (hkind : M.kind op = .work) :
    Inside M d (call op k) ↔ M.allowed d op ∧ ∀ r, Inside M d (k r) := by
  rw [Inside, hkind]

theorem inside_release {M : System Op Res D G S L} {d : D} {op : Op} {k : Res op → Prog Op Res α}
    (hkind : M.kind op = .release) :
    Inside M d (call op k) ↔ M.allowed d op ∧ ∀ r, ∃ a, k r = ret a := by
  rw [Inside, hkind]

theorem not_inside_acquire {M : System Op Res D G S L} {d : D} {op : Op}
    {k : Res op → Prog Op Res α} (hkind : M.kind op = .acquire) : ¬ Inside M d (call op k) := by
  rw [Inside, hkind]
  exact fun h => h.2

/-- Ordinary calls followed by the rest of a critical section. -/
theorem Working.inside_bind {M : System Op Res D G S L} {d : D} {β : Type} {p : Prog Op Res β}
    {f : β → Prog Op Res α} (hp : Working M d p) (hf : ∀ b, Inside M d (f b)) :
    Inside M d (p >>= f) := by
  induction p with
  | ret b => exact hf b
  | call op k ih =>
      obtain ⟨hallowed, hkind, hk⟩ := hp
      exact (inside_work hkind).mpr ⟨hallowed, fun r => ih r (hk r)⟩

variable [DecidableEq D] [DecidableEq T]

/-- Thread `t` is submitted to device `d` with program `p`. -/
def Config.submit (c : Config Op Res α D G L T) (t : T) (d : D) (p : Prog Op Res α) (l : L) :
    Config Op Res α D G L T :=
  { c with threads := Function.update c.threads t (some ⟨d, p, p, l, l⟩) }

/-- Thread `t`, standing before a call, has made it: `p` and `l` are its program
and local state now, `g` the shared state. -/
def Config.advance (c : Config Op Res α D G L T) (t : T) (th : Thread Op Res α D L)
    (p : Prog Op Res α) (g : G) (l : L) : Config Op Res α D G L T :=
  { c with
    shared := g
    threads := Function.update c.threads t (some { th with prog := p, loc := l }) }

/-- Thread `t` takes the mutex of `d`. -/
def Config.take (c : Config Op Res α D G L T) (d : D) (t : T) : Config Op Res α D G L T :=
  { c with
    owner := Function.update c.owner d (some t)
    order := Function.update c.order d (c.order d ++ [t]) }

/-- The mutex of `d` is given back. -/
def Config.give (c : Config Op Res α D G L T) (d : D) : Config Op Res α D G L T :=
  { c with owner := Function.update c.owner d none }

/-- One step: a new thread is submitted, or a thread makes its next call. Only a
free mutex can be taken. -/
inductive Step (M : System Op Res D G S L) (Submit : D → Prog Op Res α → L → Prop) :
    Config Op Res α D G L T → Config Op Res α D G L T → Prop where
  | submit {c : Config Op Res α D G L T} {t : T} {d : D} {p : Prog Op Res α} {l : L}
      (hnew : c.threads t = none) (hp : Submit d p l) : Step M Submit c (c.submit t d p l)
  | acquire {c : Config Op Res α D G L T} {t : T} {th : Thread Op Res α D L} {op : Op}
      {k : Res op → Prog Op Res α} {r : Res op} {g : G} {l : L} (ht : c.threads t = some th)
      (hprog : th.prog = call op k) (hkind : M.kind op = .acquire)
      (hfree : c.owner th.dev = none) (hact : M.act th.dev op c.shared th.loc = some (r, g, l)) :
      Step M Submit c ((c.advance t th (k r) g l).take th.dev t)
  | work {c : Config Op Res α D G L T} {t : T} {th : Thread Op Res α D L} {op : Op}
      {k : Res op → Prog Op Res α} {r : Res op} {g : G} {l : L} (ht : c.threads t = some th)
      (hprog : th.prog = call op k) (hkind : M.kind op = .work)
      (hact : M.act th.dev op c.shared th.loc = some (r, g, l)) :
      Step M Submit c (c.advance t th (k r) g l)
  | release {c : Config Op Res α D G L T} {t : T} {th : Thread Op Res α D L} {op : Op}
      {k : Res op → Prog Op Res α} {r : Res op} {g : G} {l : L} (ht : c.threads t = some th)
      (hprog : th.prog = call op k) (hkind : M.kind op = .release)
      (hact : M.act th.dev op c.shared th.loc = some (r, g, l)) :
      Step M Submit c ((c.advance t th (k r) g l).give th.dev)

/-- No thread has been submitted and no mutex is held. -/
def Config.initial (g : G) : Config Op Res α D G L T where
  shared := g
  owner _ := none
  order _ := []
  threads _ := none

/-- The configurations that runs from the shared state `g₀` go through. -/
def Reachable (M : System Op Res D G S L) (Submit : D → Prog Op Res α → L → Prop) (g₀ : G)
    (c : Config Op Res α D G L T) : Prop :=
  Relation.ReflTransGen (Step M Submit) (Config.initial g₀) c

/-- No request is in progress: every thread has returned. -/
def Config.Idle (c : Config Op Res α D G L T) : Prop :=
  ∀ t th, c.threads t = some th → ∃ a, th.prog = ret a

/-- The submitted programs of some threads, with their local states. -/
def Config.jobs (c : Config Op Res α D G L T) (ts : List T) : List (Prog Op Res α × L) :=
  ts.filterMap fun t => (c.threads t).map fun th => (th.start, th.init)

/-- The present local states of some threads. -/
def Config.locals (c : Config Op Res α D G L T) (ts : List T) : List L :=
  ts.filterMap fun t => (c.threads t).map fun th => th.loc

/-! ## What each step does to the fields -/

section Fields

variable (c : Config Op Res α D G L T) (t u : T) (d e : D) (th : Thread Op Res α D L)
  (p : Prog Op Res α) (g : G) (l : L)

omit [DecidableEq D] in
@[simp] theorem submit_threads_self : (c.submit t d p l).threads t = some ⟨d, p, p, l, l⟩ :=
  Function.update_self ..

omit [DecidableEq D] in
theorem submit_threads_ne {u : T} (h : u ≠ t) : (c.submit t d p l).threads u = c.threads u :=
  Function.update_of_ne h ..

omit [DecidableEq D] in
@[simp] theorem advance_threads_self :
    (c.advance t th p g l).threads t = some { th with prog := p, loc := l } :=
  Function.update_self ..

omit [DecidableEq D] in
theorem advance_threads_ne {u : T} (h : u ≠ t) :
    (c.advance t th p g l).threads u = c.threads u := Function.update_of_ne h ..

omit [DecidableEq D] in
@[simp] theorem advance_owner : (c.advance t th p g l).owner = c.owner := rfl

omit [DecidableEq D] in
@[simp] theorem advance_order : (c.advance t th p g l).order = c.order := rfl

omit [DecidableEq T] in
@[simp] theorem take_threads : (c.take d t).threads = c.threads := rfl

omit [DecidableEq T] in
@[simp] theorem take_owner_self : (c.take d t).owner d = some t := Function.update_self ..

omit [DecidableEq T] in
theorem take_owner_ne {e : D} (h : e ≠ d) : (c.take d t).owner e = c.owner e :=
  Function.update_of_ne h ..

omit [DecidableEq T] in
@[simp] theorem take_order_self : (c.take d t).order d = c.order d ++ [t] :=
  Function.update_self ..

omit [DecidableEq T] in
theorem take_order_ne {e : D} (h : e ≠ d) : (c.take d t).order e = c.order e :=
  Function.update_of_ne h ..

omit [DecidableEq T] in
@[simp] theorem give_threads : (c.give d).threads = c.threads := rfl

omit [DecidableEq T] in
@[simp] theorem give_order : (c.give d).order = c.order := rfl

omit [DecidableEq T] in
@[simp] theorem give_owner_self : (c.give d).owner d = none := Function.update_self ..

omit [DecidableEq T] in
theorem give_owner_ne {e : D} (h : e ≠ d) : (c.give d).owner e = c.owner e :=
  Function.update_of_ne h ..

end Fields

omit [DecidableEq D] [DecidableEq T] in
theorem jobs_congr {c c' : Config Op Res α D G L T} {ts : List T}
    (h : ∀ t ∈ ts, c'.threads t = c.threads t) : c'.jobs ts = c.jobs ts :=
  List.filterMap_congr fun t ht => by rw [h t ht]

omit [DecidableEq D] [DecidableEq T] in
theorem locals_congr {c c' : Config Op Res α D G L T} {ts : List T}
    (h : ∀ t ∈ ts, c'.threads t = c.threads t) : c'.locals ts = c.locals ts :=
  List.filterMap_congr fun t ht => by rw [h t ht]

omit [DecidableEq D] [DecidableEq T] in
theorem jobs_concat {c : Config Op Res α D G L T} {t : T} {th : Thread Op Res α D L} (pre : List T)
    (ht : c.threads t = some th) : c.jobs (pre ++ [t]) = c.jobs pre ++ [(th.start, th.init)] := by
  simp [Config.jobs, ht]

omit [DecidableEq D] [DecidableEq T] in
theorem locals_concat {c : Config Op Res α D G L T} {t : T} {th : Thread Op Res α D L}
    (pre : List T) (ht : c.threads t = some th) :
    c.locals (pre ++ [t]) = c.locals pre ++ [th.loc] := by
  simp [Config.locals, ht]

omit [DecidableEq D] [DecidableEq T] in
theorem locals_getElem? {c : Config Op Res α D G L T} (ts : List T) :
    ∀ {k : ℕ} {t : T} {th : Thread Op Res α D L}, (∀ u ∈ ts, ∃ thu, c.threads u = some thu) →
      ts[k]? = some t → c.threads t = some th → (c.locals ts)[k]? = some th.loc := by
  induction ts with
  | nil =>
      intro k t th _ hk
      cases hk
  | cons u ts ih =>
      intro k t th hall hk hth
      obtain ⟨⟨thu, hu⟩, hrest⟩ := List.forall_mem_cons.mp hall
      have hcons : c.locals (u :: ts) = thu.loc :: c.locals ts := by
        rw [Config.locals, List.filterMap_cons, hu]
        rfl
      rw [hcons]
      cases k with
      | zero =>
          obtain rfl := Option.some.inj hk
          rw [hu] at hth
          rw [Option.some.inj hth]
          rfl
      | succ k => exact ih hrest hk hth

/-! ## The invariant -/

/-- Where a submitted thread is: before its first call, in its critical section,
or returned. -/
inductive Phase (M : System Op Res D G S L) (c : Config Op Res α D G L T) (t : T)
    (th : Thread Op Res α D L) : Prop where
  | waiting (hguard : Guarded M th.dev th.start) (hprog : th.prog = th.start)
      (hloc : th.loc = th.init) (hnot : t ∉ c.order th.dev)
  | inside (howner : c.owner th.dev = some t)
  | done (a : α) (hprog : th.prog = ret a) (hmem : t ∈ c.order th.dev)

/-- `t` holds the mutex of `d`: the threads before it account for the state `s`
in which it took it, and running all of its program from `s` comes to the same as
running what is left of it from here. -/
def Busy (M : System Op Res D G S L) (g₀ : G) (c : Config Op Res α D G L T) (d : D) (t : T) :
    Prop :=
  ∃ th pre s, c.threads t = some th ∧ th.dev = d ∧ Inside M d th.prog ∧ c.order d = pre ++ [t]
    ∧ serial (M.serve d) (c.jobs pre) (M.view d g₀) = some (s, c.locals pre)
    ∧ exec (M.serve d) th.start (s, th.init) = exec (M.serve d) th.prog (M.view d c.shared, th.loc)

/-- What device `d` holds is accounted for by its threads in the order in which
they took the mutex. -/
structure Replay (M : System Op Res D G S L) (g₀ : G) (c : Config Op Res α D G L T) (d : D) :
    Prop where
  idle : c.owner d = none →
    serial (M.serve d) (c.jobs (c.order d)) (M.view d g₀)
      = some (M.view d c.shared, c.locals (c.order d))
  busy : ∀ t, c.owner d = some t → Busy M g₀ c d t

/-- The invariant of the system. -/
structure Inv (M : System Op Res D G S L) (g₀ : G) (c : Config Op Res α D G L T) : Prop where
  phase : ∀ t th, c.threads t = some th → Phase M c t th
  ordered : ∀ d t, t ∈ c.order d → ∃ th, c.threads t = some th ∧ th.dev = d
  nodup : ∀ d, (c.order d).Nodup
  replay : ∀ d, Replay M g₀ c d

omit [DecidableEq D] [DecidableEq T] in
theorem inv_initial (M : System Op Res D G S L) (g₀ : G) :
    Inv M g₀ (Config.initial g₀ : Config Op Res α D G L T) where
  phase _ _ h := nomatch h
  ordered _ _ h := nomatch h
  nodup _ := List.nodup_nil
  replay _ := ⟨fun _ => rfl, fun _ h => nomatch h⟩

omit [DecidableEq D] [DecidableEq T] in
/-- A step that leaves a device's mutex, queue, threads and part of the state
alone leaves its account alone. -/
theorem Replay.congr {M : System Op Res D G S L} {g₀ : G} {c c' : Config Op Res α D G L T} {d : D}
    (h : Replay M g₀ c d) (howner : c'.owner d = c.owner d) (horder : c'.order d = c.order d)
    (hthreads : ∀ t ∈ c.order d, c'.threads t = c.threads t)
    (hview : M.view d c'.shared = M.view d c.shared) : Replay M g₀ c' d where
  idle hfree := by
    rw [horder, jobs_congr hthreads, locals_congr hthreads, hview]
    exact h.idle (howner ▸ hfree)
  busy t ht := by
    obtain ⟨th, pre, s, hth, hdev, hin, hpre, hserial, hexec⟩ := h.busy t (howner ▸ ht)
    have hmem : t ∈ c.order d := by rw [hpre]; simp
    have hsub : ∀ u ∈ pre, c'.threads u = c.threads u := by
      intro u hu
      exact hthreads u (by rw [hpre]; exact List.mem_append_left _ hu)
    refine ⟨th, pre, s, (hthreads t hmem).trans hth, hdev, hin, horder.trans hpre, ?_, ?_⟩
    · rw [jobs_congr hsub, locals_congr hsub]
      exact hserial
    · rw [hview]
      exact hexec

/-! ## One lemma for each step -/

section Steps

variable {M : System Op Res D G S L} {g₀ : G} {c : Config Op Res α D G L T} {t : T}
  {th : Thread Op Res α D L} {op : Op} {k : Res op → Prog Op Res α} {r : Res op} {g : G} {l : L}

omit [DecidableEq D] [DecidableEq T] in
/-- A thread queues on its own device only. -/
theorem Inv.not_mem_of_ne (h : Inv M g₀ c) (ht : c.threads t = some th) {d : D}
    (hd : d ≠ th.dev) : t ∉ c.order d := by
  intro hmem
  obtain ⟨th', hth', hdev⟩ := h.ordered d t hmem
  rw [ht] at hth'
  cases hth'
  exact hd hdev.symm

omit [DecidableEq D] [DecidableEq T] in
/-- Only a thread that has not started can be about to take the mutex. -/
theorem Inv.waiting_of_acquire (h : Inv M g₀ c) (ht : c.threads t = some th)
    (hprog : th.prog = call op k) (hkind : M.kind op = .acquire) :
    Guarded M th.dev th.start ∧ th.prog = th.start ∧ th.loc = th.init ∧ t ∉ c.order th.dev := by
  cases h.phase t th ht with
  | waiting hguard hp hloc hnot => exact ⟨hguard, hp, hloc, hnot⟩
  | inside howner =>
      obtain ⟨th', pre, s, hth', -, hin, -⟩ := (h.replay th.dev).busy t howner
      rw [ht] at hth'
      cases hth'
      rw [hprog] at hin
      exact absurd hin (not_inside_acquire hkind)
  | done a hp hmem =>
      rw [hprog] at hp
      cases hp

omit [DecidableEq D] [DecidableEq T] in
/-- A thread about to make any other call holds the mutex. -/
theorem Inv.owner_of_call (h : Inv M g₀ c) (ht : c.threads t = some th)
    (hprog : th.prog = call op k) (hkind : M.kind op ≠ .acquire) :
    c.owner th.dev = some t := by
  cases h.phase t th ht with
  | waiting hguard hp hloc hnot =>
      obtain ⟨op', k', hstart, hkind', -⟩ := hguard
      rw [← hp, hprog] at hstart
      cases hstart
      exact absurd hkind' hkind
  | inside howner => exact howner
  | done a hp hmem =>
      rw [hprog] at hp
      cases hp

omit [DecidableEq D] [DecidableEq T] in
/-- A thread's next call is one its device may make. -/
theorem Inv.allowed (h : Inv M g₀ c) (ht : c.threads t = some th) (hprog : th.prog = call op k) :
    M.allowed th.dev op := by
  cases h.phase t th ht with
  | waiting hguard hp hloc hnot =>
      obtain ⟨op', k', hstart, -, hallowed, -⟩ := hguard
      rw [← hp, hprog] at hstart
      cases hstart
      exact hallowed
  | inside howner =>
      obtain ⟨th', pre, s, hth', -, hin, -⟩ := (h.replay th.dev).busy t howner
      rw [ht] at hth'
      cases hth'
      rw [hprog, Inside] at hin
      exact hin.1
  | done a hp hmem =>
      rw [hprog] at hp
      cases hp

omit [DecidableEq D] in
theorem Inv.submit {d : D} {p : Prog Op Res α} (h : Inv M g₀ c) (hnew : c.threads t = none)
    (hp : Guarded M d p) : Inv M g₀ (c.submit t d p l) := by
  -- a new thread is in no order, so no order notices it
  have hnot : ∀ e, t ∉ c.order e := by
    intro e he
    obtain ⟨th, hth, -⟩ := h.ordered e t he
    rw [hnew] at hth
    cases hth
  have hsame : ∀ e, ∀ u ∈ c.order e, (c.submit t d p l).threads u = c.threads u := by
    intro e u hu
    exact submit_threads_ne c t d p l fun hut => hnot e (hut ▸ hu)
  refine ⟨?_, ?_, h.nodup, fun e => (h.replay e).congr rfl rfl (hsame e) rfl⟩
  -- phases: the new thread waits, the others are where they were
  · intro u thu hu
    by_cases hut : u = t
    · subst hut
      rw [submit_threads_self] at hu
      cases hu
      exact Phase.waiting hp rfl rfl (hnot d)
    · rw [submit_threads_ne c t d p l hut] at hu
      cases h.phase u thu hu with
      | waiting hguard hprog hloc hn => exact Phase.waiting hguard hprog hloc hn
      | inside howner => exact Phase.inside howner
      | done a hprog hmem => exact Phase.done a hprog hmem
  · intro e u hu
    obtain ⟨thu, hthu, hdev⟩ := h.ordered e u hu
    exact ⟨thu, (hsame e u hu).trans hthu, hdev⟩

omit [DecidableEq D] in
/-- A thread that moves stays the thread of its device. -/
theorem Inv.advance_ordered (h : Inv M g₀ c) (ht : c.threads t = some th) (p : Prog Op Res α)
    (g : G) (l : L) {d : D} {u : T} (hu : u ∈ c.order d) :
    ∃ thu, (c.advance t th p g l).threads u = some thu ∧ thu.dev = d := by
  obtain ⟨thu, hthu, hdev⟩ := h.ordered d u hu
  by_cases hut : u = t
  · subst hut
    rw [ht] at hthu
    cases hthu
    exact ⟨_, advance_threads_self c u th p g l, hdev⟩
  · exact ⟨thu, (advance_threads_ne c t th p g l hut).trans hthu, hdev⟩

omit [DecidableEq D] in
/-- The threads of the other devices are where they were. -/
theorem Inv.advance_other (h : Inv M g₀ c) (ht : c.threads t = some th) (p : Prog Op Res α) (g : G)
    (l : L) {d : D} (hd : d ≠ th.dev) {u : T} (hu : u ∈ c.order d) :
    (c.advance t th p g l).threads u = c.threads u := by
  refine advance_threads_ne c t th p g l ?_
  rintro rfl
  exact h.not_mem_of_ne ht hd hu

/-- Taking the mutex moves only its taker to another phase. -/
theorem Inv.acquire_phase (h : Inv M g₀ c) (hfree : c.owner th.dev = none) {u : T}
    {thu : Thread Op Res α D L} (hut : u ≠ t) (hu : c.threads u = some thu) :
    Phase M ((c.advance t th (k r) g l).take th.dev t) u thu := by
  cases h.phase u thu hu with
  | waiting hguard hp hloc hnot =>
      refine Phase.waiting hguard hp hloc ?_
      by_cases hd : thu.dev = th.dev
      · rw [hd] at hnot ⊢
        simp [hnot, hut]
      · rwa [take_order_ne _ _ _ hd]
  | inside howner =>
      refine Phase.inside ?_
      -- the mutex is free, so whoever is inside holds another one
      have hd : thu.dev ≠ th.dev := by
        intro hd
        rw [hd, hfree] at howner
        cases howner
      rwa [take_owner_ne _ _ _ hd]
  | done a hp hmem =>
      refine Phase.done a hp ?_
      by_cases hd : thu.dev = th.dev
      · rw [hd] at hmem ⊢
        simp [hmem]
      · rwa [take_order_ne _ _ _ hd]

theorem Inv.acquire (h : Inv M g₀ c) (ht : c.threads t = some th) (hprog : th.prog = call op k)
    (hkind : M.kind op = .acquire) (hfree : c.owner th.dev = none)
    (hact : M.act th.dev op c.shared th.loc = some (r, g, l)) :
    Inv M g₀ ((c.advance t th (k r) g l).take th.dev t) := by
  obtain ⟨hguard, hp, hloc, hnot⟩ := h.waiting_of_acquire ht hprog hkind
  obtain ⟨op', k', hstart, -, hallowed, hinside⟩ := hguard
  rw [← hp, hprog] at hstart
  cases hstart
  have hserve := M.act_view th.dev op c.shared th.loc hallowed
  rw [hact, Option.map_some] at hserve
  have hsame : ∀ d, ∀ u ∈ c.order d,
      ((c.advance t th (k r) g l).take th.dev t).threads u = c.threads u := by
    intro d u hu
    by_cases hd : d = th.dev
    · refine advance_threads_ne c t th _ g l ?_
      rintro rfl
      exact hnot (hd ▸ hu)
    · exact h.advance_other ht (k r) g l hd hu
  refine ⟨?_, ?_, ?_, ?_⟩
  -- phases: the taker is inside now
  · intro u thu hu
    by_cases hut : u = t
    · subst hut
      rw [take_threads, advance_threads_self] at hu
      cases hu
      exact Phase.inside (take_owner_self ..)
    · rw [take_threads, advance_threads_ne c t th _ g l hut] at hu
      exact h.acquire_phase hfree hut hu
  -- the order of the device has the taker behind those before it
  · intro d u hu
    by_cases hd : d = th.dev
    · subst hd
      rw [take_order_self, List.mem_append, List.mem_singleton] at hu
      rcases hu with hu | rfl
      · exact h.advance_ordered ht (k r) g l hu
      · exact ⟨_, advance_threads_self c u th (k r) g l, rfl⟩
    · rw [take_order_ne _ _ _ hd] at hu
      exact h.advance_ordered ht (k r) g l hu
  -- nobody takes it twice
  · intro d
    by_cases hd : d = th.dev
    · subst hd
      rw [take_order_self, advance_order, List.nodup_append]
      refine ⟨h.nodup _, List.pairwise_singleton _ t, fun u hu v hv huv => ?_⟩
      exact hnot (List.mem_singleton.mp hv ▸ huv ▸ hu)
    · rw [take_order_ne _ _ _ hd]
      exact h.nodup d
  -- replay: what was replayed for the free mutex is what comes before the taker
  · intro d
    by_cases hd : d = th.dev
    · subst hd
      refine ⟨fun hfree' => ?_, fun u hu => ?_⟩
      · rw [take_owner_self] at hfree'
        cases hfree'
      · rw [take_owner_self, Option.some.injEq] at hu
        subst hu
        refine ⟨_, c.order th.dev, M.view th.dev c.shared,
          advance_threads_self c t th (k r) g l, rfl,
          hinside r, take_order_self .., ?_, ?_⟩
        · rw [jobs_congr (hsame _), locals_congr (hsame _)]
          exact (h.replay th.dev).idle hfree
        · -- the program is at its first call, so all of it is left
          rw [← hp, hprog, ← hloc]
          exact exec_call_some hserve.symm
    · exact (h.replay d).congr (take_owner_ne _ _ _ hd) (take_order_ne _ _ _ hd) (hsame d)
        (M.act_frame _ _ _ _ _ hallowed hact d hd)

omit [DecidableEq D] in
/-- A thread inside its critical section makes one more call: what is left of its
program still comes to the same. -/
theorem Busy.advance (h : Inv M g₀ c) (ht : c.threads t = some th) (hprog : th.prog = call op k)
    (hkind : M.kind op ≠ .acquire) (hact : M.act th.dev op c.shared th.loc = some (r, g, l)) :
    ∃ pre s, Inside M th.dev (call op k) ∧ c.order th.dev = pre ++ [t]
      ∧ (∀ u ∈ pre, (c.advance t th (k r) g l).threads u = c.threads u)
      ∧ serial (M.serve th.dev) (c.jobs pre) (M.view th.dev g₀) = some (s, c.locals pre)
      ∧ exec (M.serve th.dev) th.start (s, th.init)
          = exec (M.serve th.dev) (k r) (M.view th.dev g, l) := by
  obtain ⟨th', pre, s, hth', -, hin, hpre, hserial, hexec⟩ :=
    (h.replay th.dev).busy t (h.owner_of_call ht hprog hkind)
  rw [ht] at hth'
  cases hth'
  rw [hprog] at hin hexec
  have hallowed : M.allowed th.dev op := by
    rw [Inside] at hin
    exact hin.1
  have hserve := M.act_view th.dev op c.shared th.loc hallowed
  rw [hact, Option.map_some] at hserve
  refine ⟨pre, s, hin, hpre, fun u hu => ?_, hserial, ?_⟩
  · -- the owner is the last of the order, and there only once
    refine advance_threads_ne c t th _ g l ?_
    rintro rfl
    have hnodup := h.nodup th.dev
    rw [hpre] at hnodup
    exact (List.nodup_append.mp hnodup).2.2 u hu u (List.mem_singleton_self u) rfl
  · rw [hexec]
    exact exec_call_some hserve.symm

omit [DecidableEq D] in
theorem Inv.work (h : Inv M g₀ c) (ht : c.threads t = some th) (hprog : th.prog = call op k)
    (hkind : M.kind op = .work) (hact : M.act th.dev op c.shared th.loc = some (r, g, l)) :
    Inv M g₀ (c.advance t th (k r) g l) := by
  have hne : M.kind op ≠ .acquire := by rw [hkind]; decide
  have howner := h.owner_of_call ht hprog hne
  obtain ⟨pre, s, hin, hpre, hsame, hserial, hexec⟩ := Busy.advance h ht hprog hne hact
  obtain ⟨hallowed, hinside⟩ := (inside_work hkind).mp hin
  refine ⟨?_, fun d u hu => h.advance_ordered ht (k r) g l hu, h.nodup, ?_⟩
  · intro u thu hu
    by_cases hut : u = t
    · subst hut
      rw [advance_threads_self] at hu
      cases hu
      exact Phase.inside howner
    · rw [advance_threads_ne c t th _ g l hut] at hu
      cases h.phase u thu hu with
      | waiting hguard hp hloc hnot => exact Phase.waiting hguard hp hloc hnot
      | inside howner => exact Phase.inside howner
      | done a hp hmem => exact Phase.done a hp hmem
  · intro d
    by_cases hd : d = th.dev
    · subst hd
      refine ⟨fun hfree => ?_, fun u hu => ?_⟩
      · rw [advance_owner, howner] at hfree
        cases hfree
      · -- what the owner has left still comes to the same, from the same replayed state
        rw [advance_owner, howner, Option.some.injEq] at hu
        subst hu
        refine ⟨_, pre, s, advance_threads_self .., rfl, hinside r, hpre, ?_, hexec⟩
        rw [jobs_congr hsame, locals_congr hsame]
        exact hserial
    · exact (h.replay d).congr rfl rfl (fun u hu => h.advance_other ht (k r) g l hd hu)
        (M.act_frame _ _ _ _ _ hallowed hact d hd)

theorem Inv.release (h : Inv M g₀ c) (ht : c.threads t = some th) (hprog : th.prog = call op k)
    (hkind : M.kind op = .release) (hact : M.act th.dev op c.shared th.loc = some (r, g, l)) :
    Inv M g₀ ((c.advance t th (k r) g l).give th.dev) := by
  have hne : M.kind op ≠ .acquire := by rw [hkind]; decide
  have howner := h.owner_of_call ht hprog hne
  obtain ⟨pre, s, hin, hpre, hsame, hserial, hexec⟩ := Busy.advance h ht hprog hne hact
  obtain ⟨hallowed, hret⟩ := (inside_release hkind).mp hin
  obtain ⟨a, ha⟩ := hret r
  have hmem : t ∈ c.order th.dev := by
    rw [hpre]
    exact List.mem_append_right _ (List.mem_singleton_self t)
  refine ⟨?_, fun d u hu => h.advance_ordered ht (k r) g l hu, h.nodup, ?_⟩
  · intro u thu hu
    by_cases hut : u = t
    · subst hut
      rw [give_threads, advance_threads_self] at hu
      cases hu
      exact Phase.done a ha hmem
    · rw [give_threads, advance_threads_ne c t th _ g l hut] at hu
      cases h.phase u thu hu with
      | waiting hguard hp hloc hnot => exact Phase.waiting hguard hp hloc hnot
      | inside howner' =>
          refine Phase.inside ?_
          -- `t` has this mutex, so whoever else is inside holds another one
          have hd : thu.dev ≠ th.dev := by
            intro hd
            rw [hd, howner, Option.some.injEq] at howner'
            exact hut howner'.symm
          rwa [give_owner_ne _ _ hd]
      | done a hp hmem => exact Phase.done a hp hmem
  · intro d
    by_cases hd : d = th.dev
    · subst hd
      refine ⟨fun _ => ?_, fun u hu => ?_⟩
      · -- the thread has returned, so it joins the replayed ones
        rw [ha] at hexec
        have hth : ((c.advance t th (k r) g l).give th.dev).threads t
            = some { th with prog := k r, loc := l } := advance_threads_self c t th (k r) g l
        rw [give_order, advance_order, hpre, jobs_concat pre hth, locals_concat pre hth]
        refine serial_concat _ ?_ hexec
        have hj : ((c.advance t th (k r) g l).give th.dev).jobs pre = c.jobs pre := jobs_congr hsame
        have hl : ((c.advance t th (k r) g l).give th.dev).locals pre = c.locals pre :=
          locals_congr hsame
        rw [hj, hl]
        exact hserial
      · rw [give_owner_self] at hu
        cases hu
    · exact (h.replay d).congr (give_owner_ne _ _ hd) rfl (fun u hu => h.advance_other ht (k r) g l hd hu)
        (M.act_frame _ _ _ _ _ hallowed hact d hd)

end Steps

/-! ## Whole runs -/

theorem Step.inv {M : System Op Res D G S L} {Submit : D → Prog Op Res α → L → Prop} {g₀ : G}
    (hsubmit : ∀ d p l, Submit d p l → Guarded M d p) {c c' : Config Op Res α D G L T}
    (hstep : Step M Submit c c') (h : Inv M g₀ c) : Inv M g₀ c' := by
  cases hstep with
  | submit hnew hp => exact h.submit hnew (hsubmit _ _ _ hp)
  | acquire ht hprog hkind hfree hact => exact h.acquire ht hprog hkind hfree hact
  | work ht hprog hkind hact => exact h.work ht hprog hkind hact
  | release ht hprog hkind hact => exact h.release ht hprog hkind hact

theorem Reachable.inv {M : System Op Res D G S L} {Submit : D → Prog Op Res α → L → Prop} {g₀ : G}
    (hsubmit : ∀ d p l, Submit d p l → Guarded M d p) {c : Config Op Res α D G L T}
    (hc : Reachable M Submit g₀ c) : Inv M g₀ c := by
  induction hc with
  | refl => exact inv_initial M g₀
  | tail _ hstep ih => exact hstep.inv hsubmit ih

/-- **Guarded programs are serialisable.** Where no thread is running, each
device holds what running its threads' programs one after another, in the order
in which they took its mutex, leaves there; so do the threads' local states; and
that order lists every thread of the device exactly once. -/
theorem Reachable.serialisable {M : System Op Res D G S L}
    {Submit : D → Prog Op Res α → L → Prop} {g₀ : G}
    (hsubmit : ∀ d p l, Submit d p l → Guarded M d p) {c : Config Op Res α D G L T}
    (hc : Reachable M Submit g₀ c) (hidle : c.Idle) (d : D) :
    serial (M.serve d) (c.jobs (c.order d)) (M.view d g₀)
        = some (M.view d c.shared, c.locals (c.order d))
      ∧ (c.order d).Nodup
      ∧ ∀ t, t ∈ c.order d ↔ ∃ th, c.threads t = some th ∧ th.dev = d := by
  have hinv := hc.inv hsubmit
  -- an owner would be in its critical section, and nobody is running
  have hfree : c.owner d = none := by
    rcases howner : c.owner d with - | t
    · rfl
    · obtain ⟨th, pre, s, hth, -, hin, -⟩ := (hinv.replay d).busy t howner
      obtain ⟨a, ha⟩ := hidle t th hth
      rw [ha] at hin
      exact hin.elim
  refine ⟨(hinv.replay d).idle hfree, hinv.nodup d, fun t => ⟨hinv.ordered d t, ?_⟩⟩
  rintro ⟨th, hth, rfl⟩
  cases hinv.phase t th hth with
  | waiting hguard hprog _ _ =>
      -- it has not made its first call, so it has not returned
      obtain ⟨op, k, hstart, -⟩ := hguard
      obtain ⟨a, ha⟩ := hidle t th hth
      rw [hprog, hstart] at ha
      cases ha
  | inside howner =>
      rw [hfree] at howner
      cases howner
  | done _ _ hmem => exact hmem

/-- What no call of any device touches stays as it was. -/
theorem Reachable.kept {M : System Op Res D G S L} {Submit : D → Prog Op Res α → L → Prop} {g₀ : G}
    (hsubmit : ∀ d p l, Submit d p l → Guarded M d p) {X : Type} (f : G → X)
    (hf : ∀ d op g l x, M.allowed d op → M.act d op g l = some x → f x.2.1 = f g)
    {c : Config Op Res α D G L T} (hc : Reachable M Submit g₀ c) : f c.shared = f g₀ := by
  induction hc with
  | refl => rfl
  | tail hreach hstep ih =>
      have hinv := Reachable.inv hsubmit hreach
      cases hstep with
      | submit _ _ => exact ih
      | acquire ht hprog _ _ hact => exact (hf _ _ _ _ _ (hinv.allowed ht hprog) hact).trans ih
      | work ht hprog _ hact => exact (hf _ _ _ _ _ (hinv.allowed ht hprog) hact).trans ih
      | release ht hprog _ hact => exact (hf _ _ _ _ _ (hinv.allowed ht hprog) hact).trans ih

/-- Every thread was submitted. -/
theorem Reachable.submitted {M : System Op Res D G S L} {Submit : D → Prog Op Res α → L → Prop}
    {g₀ : G} {c : Config Op Res α D G L T} (hc : Reachable M Submit g₀ c) :
    ∀ t th, c.threads t = some th → Submit th.dev th.start th.init := by
  -- a step submits one thread, or moves one without changing what it was submitted with
  have hmove : ∀ (c : Config Op Res α D G L T) (t : T) (th : Thread Op Res α D L)
      (p : Prog Op Res α) (l : L), c.threads t = some th →
      (∀ u thu, c.threads u = some thu → Submit thu.dev thu.start thu.init) →
      ∀ u thu, Function.update c.threads t (some { th with prog := p, loc := l }) u = some thu →
        Submit thu.dev thu.start thu.init := by
    intro c t th p l ht ih u thu hu
    by_cases hut : u = t
    · subst hut
      rw [Function.update_self] at hu
      cases hu
      exact ih u th ht
    · rw [Function.update_of_ne hut] at hu
      exact ih u thu hu
  induction hc with
  | refl => exact fun t th h => nomatch h
  | tail _ hstep ih =>
      cases hstep with
      | submit hnew hp =>
          rename_i t d p l
          intro u thu hu
          by_cases hut : u = t
          · subst hut
            rw [submit_threads_self] at hu
            cases hu
            exact hp
          · rw [submit_threads_ne _ t d p l hut] at hu
            exact ih u thu hu
      | acquire ht _ _ _ _ => exact hmove _ _ _ _ _ ht ih
      | work ht _ _ _ => exact hmove _ _ _ _ _ ht ih
      | release ht _ _ _ => exact hmove _ _ _ _ _ ht ih

omit [DecidableEq D] [DecidableEq T] in
/-- The thread that holds a mutex is never stuck, if its program, run alone from
where it took the mutex, comes to an end: its next call is answered. -/
theorem Inv.owner_answered {M : System Op Res D G S L} {g₀ : G} {c : Config Op Res α D G L T}
    (h : Inv M g₀ c) {d : D} {t : T} (howner : c.owner d = some t)
    (hends : ∀ th s, c.threads t = some th → th.dev = d →
      (exec (M.serve d) th.start (s, th.init)).isSome) :
    ∃ th op k x, c.threads t = some th ∧ th.dev = d ∧ th.prog = call op k
      ∧ M.act d op c.shared th.loc = some x := by
  obtain ⟨th, pre, s, hth, hdev, hin, -, -, hexec⟩ := (h.replay d).busy t howner
  subst hdev
  have hsome := hends th s hth rfl
  rw [hexec] at hsome
  -- without an answer here, the run alone would not end
  rcases hprog : th.prog with a | ⟨op, k⟩
  · rw [hprog] at hin
    exact hin.elim
  · rw [hprog, exec_call, ← M.act_view _ _ _ _ (h.allowed hth hprog)] at hsome
    rcases hact : M.act th.dev op c.shared th.loc with - | x
    · rw [hact] at hsome
      cases hsome
    · exact ⟨th, op, k, x, hth, rfl, hprog, hact⟩

omit [DecidableEq D] in
/-- The answer of a call that a device's program makes when run alone, in the
whole system. -/
theorem act_of_exec {M : System Op Res D G S L} {d : D} {op : Op} {k : Res op → Prog Op Res α}
    {g : G} {l : L} {y : α × S × L} (hallowed : M.allowed d op)
    (hrun : exec (M.serve d) (call op k) (M.view d g, l) = some y) :
    ∃ r g' l', M.act d op g l = some (r, g', l')
      ∧ exec (M.serve d) (k r) (M.view d g', l') = some y := by
  rw [exec_call, ← M.act_view d op g l hallowed] at hrun
  rcases hact : M.act d op g l with - | ⟨r, g', l'⟩
  · rw [hact] at hrun
    cases hrun
  · rw [hact] at hrun
    exact ⟨r, g', l', rfl, hrun⟩

/-- If the rest of a critical section, run alone, comes to an end, the system can
run it to that end. -/
theorem Reachable.finish {M : System Op Res D G S L} {Submit : D → Prog Op Res α → L → Prop}
    {g₀ : G} (p : Prog Op Res α) :
    ∀ {c : Config Op Res α D G L T} {t : T} {th : Thread Op Res α D L} {a : α} {s : S} {l : L},
      Reachable M Submit g₀ c → c.threads t = some th → th.prog = p → Inside M th.dev p →
      exec (M.serve th.dev) p (M.view th.dev c.shared, th.loc) = some (a, s, l) →
      ∃ c', Reachable M Submit g₀ c' ∧ c'.order = c.order ∧ c'.owner th.dev = none
        ∧ c'.threads = Function.update c.threads t (some { th with prog := ret a, loc := l }) := by
  -- on what is left of the program: each of its calls is a step of the system
  induction p with
  | ret a => exact fun _ _ _ hin => hin.elim
  | call op k ih =>
      intro c t th a s l hc ht hprog hin hrun
      have hallowed : M.allowed th.dev op := by
        rw [Inside] at hin
        exact hin.1
      obtain ⟨r, g', l', hact, hrest⟩ := act_of_exec hallowed hrun
      cases hkind : M.kind op with
      | acquire => exact absurd hin (not_inside_acquire hkind)
      | work =>
          obtain ⟨c', hreach, horder, howner, hthreads⟩ := ih r
            (hc.tail (Step.work ht hprog hkind hact)) (advance_threads_self c t th (k r) g' l') rfl
            (((inside_work hkind).mp hin).2 r) hrest
          refine ⟨c', hreach, horder, howner, hthreads.trans ?_⟩
          exact Function.update_idem ..
      | release =>
          obtain ⟨b, hb⟩ := ((inside_release hkind).mp hin).2 r
          rw [hb, exec_ret] at hrest
          obtain ⟨rfl, -, rfl⟩ : b = a ∧ _ ∧ l' = l := by simpa using hrest
          refine ⟨_, hc.tail (Step.release ht hprog hkind hact), rfl, give_owner_self .., ?_⟩
          rw [hb]
          rfl

/-- Where the mutex is free, a new program whose run alone comes to an end can be
submitted and run to that end. -/
theorem Reachable.runs {M : System Op Res D G S L} {Submit : D → Prog Op Res α → L → Prop}
    {g₀ : G} {c : Config Op Res α D G L T} {t : T} {d : D} {p : Prog Op Res α} {a : α} {s : S}
    {l l' : L} (hc : Reachable M Submit g₀ c) (hnew : c.threads t = none)
    (hfree : c.owner d = none) (hp : Submit d p l) (hguard : Guarded M d p)
    (hrun : exec (M.serve d) p (M.view d c.shared, l) = some (a, s, l')) :
    ∃ c', Reachable M Submit g₀ c' ∧ c'.owner d = none
      ∧ c'.order = Function.update c.order d (c.order d ++ [t])
      ∧ c'.threads = Function.update c.threads t (some ⟨d, p, ret a, l, l'⟩) := by
  obtain ⟨op, k, rfl, hkind, hallowed, hin⟩ := hguard
  obtain ⟨r, g', l₁, hact, hrest⟩ := act_of_exec hallowed hrun
  have hsubmitted : Reachable M Submit g₀ (c.submit t d (call op k) l) :=
    hc.tail (Step.submit hnew hp)
  have htaken := hsubmitted.tail
    (Step.acquire (submit_threads_self c t d (call op k) l) rfl hkind hfree hact)
  obtain ⟨c', hreach, horder, howner, hthreads⟩ := Reachable.finish (k r) htaken
    (advance_threads_self _ t _ (k r) g' l₁) rfl (hin r) hrest
  refine ⟨c', hreach, howner, horder, hthreads.trans ?_⟩
  exact (Function.update_idem ..).trans (Function.update_idem ..)

end Interleaving

end XnuQemuTools.Monitor

/-
The mutex of the message log: that it is used as a mutex is.

`LogHooks` says what the hooks leave in the log. This file says what they do to the mutex
in the kernel's slot, of which they make no copy: every lock and every unlock takes it
from the slot again.

In any run at all it is never NULL that is locked or unlocked (`never_null`), although
the slot is NULL at boot and invocations race to fill it. In runs without the race that
`log_complete` excludes, an invocation unlocks the mutex that it holds, nobody holds
another, and no invocation waits for ever (`mutex_disciplined`): while one has not
returned, one of them can make its next call, and the calls come to an end.
-/
import XnuQemuTools.LogHooks
import XnuQemuTools.Turns

set_option autoImplicit false

namespace XnuQemuTools.LogHooks

open Calls Calls.Prog Interleave

/-! ## What is stored in the slot -/

/-- A program never stores NULL in the slot. -/
abbrev StoresMutex : HookProg → Prop :=
  Obeys (fun (_ : Unit) op _ _ => op ≠ .store_global_mtx 0) Sensible (fun _ _ => True) ()

theorem storesMutex_call {op : HookOp} {k : HookRes op → HookProg}
    (hop : op ≠ .store_global_mtx 0) (hk : ∀ r, Sensible op r → StoresMutex (k r)) :
    StoresMutex (perform op >>= k) := fun r hr => ⟨(), hop, hk r hr⟩

theorem init_global_mtx_stores : StoresMutex init_global_mtx := by
  refine storesMutex_call (fun h => nomatch h) fun m _ => iteInduction (fun _ => ?_) fun _ => trivial
  refine storesMutex_call (fun h => nomatch h) fun mtx_grp _ => ?_
  -- what is stored is what the allocation returned
  refine storesMutex_call (fun h => nomatch h) fun mtx hmtx => ?_
  exact storesMutex_call (fun h => hmtx (HookOp.store_global_mtx.inj h)) fun _ _ => trivial

theorem lock_global_mtx_stores : StoresMutex lock_global_mtx :=
  storesMutex_call (fun h => nomatch h) fun _ _ =>
    storesMutex_call (fun h => nomatch h) fun _ _ => trivial

theorem unlock_global_mtx_stores : StoresMutex unlock_global_mtx :=
  storesMutex_call (fun h => nomatch h) fun _ _ =>
    storesMutex_call (fun h => nomatch h) fun _ _ => trivial

theorem send_stores (message : List UInt8) (buffer : UInt64) :
    StoresMutex (write_message message >>= fun _ => perform (HookOp.kern_os_free buffer)) := by
  refine storesMutex_call (fun h => nomatch h) fun offset _ => ?_
  refine storesMutex_call (fun h => nomatch h) fun _ _ => ?_
  exact storesMutex_call (fun h => nomatch h) fun _ _ => trivial

theorem log_kmsg_stores (kmsg : UInt64) : StoresMutex (log_kmsg kmsg) := by
  refine storesMutex_call (fun h => nomatch h) fun bits _ => ?_
  refine iteInduction (fun _ => ?_) fun _ => trivial
  refine storesMutex_call (fun h => nomatch h) fun port _ => ?_
  refine storesMutex_call (fun h => nomatch h) fun io_bits _ => ?_
  refine iteInduction (fun _ => ?_) fun _ => trivial
  refine storesMutex_call (fun h => nomatch h) fun space _ => ?_
  refine iteInduction (fun _ => ?_) fun _ => trivial
  refine storesMutex_call (fun h => nomatch h) fun space _ => ?_
  refine storesMutex_call (fun h => nomatch h) fun buffer _ => ?_
  refine storesMutex_call (fun h => nomatch h) fun is_task _ => ?_
  refine iteInduction (fun _ => ?_) fun _ => send_stores _ buffer
  exact storesMutex_call (fun h => nomatch h) fun text _ => send_stores _ buffer

theorem Hook.stores {p : HookProg} (h : Hook p) : StoresMutex p := by
  rcases h with rfl | ⟨kmsg, rfl⟩
  · refine init_global_mtx_stores.bind fun _ _ _ => ?_
    refine storesMutex_call (fun h => nomatch h) fun kmsg _ => ?_
    refine lock_global_mtx_stores.bind fun _ _ _ => ?_
    refine storesMutex_call (fun h => nomatch h) fun buffer _ => ?_
    refine storesMutex_call (fun h => nomatch h) fun text _ => ?_
    exact (send_stores _ buffer).bind fun _ _ _ => unlock_global_mtx_stores
  · refine init_global_mtx_stores.bind fun _ _ _ => ?_
    refine lock_global_mtx_stores.bind fun _ _ _ => ?_
    exact (log_kmsg_stores kmsg).bind fun _ _ _ => unlock_global_mtx_stores

/-- The automaton of the hooks, with what is stored. -/
def GoesFilling (pl : Place) (op : HookOp) (r : HookRes op) (pl' : Place) : Prop :=
  Goes pl op r pl' ∧ op ≠ .store_global_mtx 0

/-- Two things a program keeps to, it keeps to together. -/
theorem obeys_filling {Q : Place → Prop} :
    ∀ {p : HookProg} {pl : Place}, HookObeys Q pl p → StoresMutex p →
      Obeys GoesFilling Sensible (fun _ pl => Q pl) pl p := by
  intro p
  induction p with
  | ret a => exact fun h _ => h
  | call op k ih =>
      intro pl h hstores r hr
      obtain ⟨pl', hgoes, hrest⟩ := h r hr
      obtain ⟨⟨⟩, hop, hk⟩ := hstores r hr
      exact ⟨pl', ⟨hgoes, hop⟩, ih r hrest hk⟩

/-- A thread whose next call is `op`. -/
theorem exists_call {o : Option HookProg} {op : HookOp} (h : o.bind next = some op) :
    ∃ k, o = some (call op k) := by
  obtain ⟨p, rfl, hp⟩ := Option.bind_eq_some_iff.mp h
  cases p with
  | ret a => cases hp
  | call op' k =>
      obtain rfl := Option.some.inj hp
      exact ⟨k, rfl⟩

/-! ## Never NULL -/

section Null

variable {T : Type}

/-- The slot has been filled when an invocation goes on from the test, and so is what it
reads there. -/
def Filled (pl : Place) (s : Kernel T) : Prop :=
  (pl ≠ .test → pl ≠ .create → s.slot ≠ 0) ∧ ∀ m, pl = .locking m ∨ pl = .leaving m → m ≠ 0

/-- Once filled, the slot stays so. -/
theorem slot_ne_zero {t : T} {op : HookOp} {s s' : Kernel T} {r : HookRes op}
    (hop : op ≠ .store_global_mtx 0) (henv : kernelEnv t op s r s') (h : s.slot ≠ 0) :
    s'.slot ≠ 0 := by
  cases op with
  | store_global_mtx m =>
      obtain ⟨-, rfl⟩ := henv
      exact fun hm => hop (congrArg HookOp.store_global_mtx hm)
  | load_global_mtx | lck_mtx_alloc_init | lck_mtx_lock | qc_size_file | qc_write_file =>
      obtain ⟨-, -, rfl⟩ := henv
      exact h
  | _ =>
      obtain ⟨-, rfl⟩ := henv
      exact h

theorem Filled.others {t : T} {op : HookOp} {s s' : Kernel T} {r : HookRes op} {pl : Place}
    (hop : op ≠ .store_global_mtx 0) (henv : kernelEnv t op s r s') (h : Filled pl s) :
    Filled pl s' :=
  ⟨fun htest hcreate => slot_ne_zero hop henv (h.1 htest hcreate), h.2⟩

theorem Filled.own {t : T} {op : HookOp} {s s' : Kernel T} {r : HookRes op} {pl pl' : Place}
    (henv : kernelEnv t op s r s') (hgoes : GoesFilling pl op r pl') (h : Filled pl s) :
    Filled pl' s' := by
  obtain ⟨hgoes, hop⟩ := hgoes
  -- past the test the slot is filled, by another invocation or by this one
  have hslot : pl ≠ .test → pl ≠ .create → s'.slot ≠ 0 :=
    fun htest hcreate => slot_ne_zero hop henv (h.1 htest hcreate)
  cases hgoes with
  | found hm =>
      obtain ⟨-, rfl, rfl⟩ := henv
      exact ⟨fun _ _ => hm, by rintro m (h | h) <;> cases h⟩
  | empty => exact ⟨fun _ hcreate => absurd rfl hcreate, by rintro m (h | h) <;> cases h⟩
  | make => exact ⟨fun _ hcreate => absurd rfl hcreate, h.2⟩
  | fill m =>
      obtain ⟨-, rfl⟩ := henv
      refine ⟨fun _ _ hm => hop (congrArg HookOp.store_global_mtx hm), ?_⟩
      rintro m (h | h) <;> cases h
  | fetch m =>
      obtain ⟨-, rfl, rfl⟩ := henv
      refine ⟨fun _ _ => h.1 (by decide) (by decide), ?_⟩
      rintro m (hm | hm) <;> cases hm
      exact h.1 (by decide) (by decide)
  | refetch m wrote m' =>
      obtain ⟨-, rfl, rfl⟩ := henv
      have hne := h.1 (fun h => nomatch h) (fun h => nomatch h)
      refine ⟨fun _ _ => hne, ?_⟩
      rintro m (hm | hm) <;> cases hm
      exact hne
  | lock | size | write | unlock =>
      refine ⟨fun _ _ => hslot (fun h => nomatch h) (fun h => nomatch h), ?_⟩
      rintro m (hm | hm) <;> cases hm
  | quiet => exact ⟨hslot, h.2⟩

variable [DecidableEq T]

/-- **It is never NULL that is locked or unlocked**, in any interleaving, race or not. -/
theorem never_null {files : UInt64 → List UInt8} {c : State T}
    (hc : Reachable kernelEnv Hook (fun _ _ _ => True) (Kernel.boot files) c) {t : T}
    {m : UInt64} (ht : (c.threads t).bind next = some (.lck_mtx_lock m)
      ∨ (c.threads t).bind next = some (.lck_mtx_unlock m)) : m ≠ 0 := by
  obtain ⟨-, hplaces⟩ := hc.places (S := fun _ => Filled) (G := fun _ => True) trivial
    (fun _ => ⟨fun h => absurd rfl h, by rintro m (h | h) <;> cases h⟩)
    (fun p hp => obeys_filling hp.obeys hp.stores) (fun t op s r s' h => h.1)
    (fun c t pl pl' op r s _ hpl _ henv hgoes => ⟨trivial, hpl.own henv hgoes⟩)
    fun c t u pl pl' plu op r s _ _ _ henv hgoes _ hplu => hplu.others hgoes.2 henv
  obtain ⟨pl, hat, hpl⟩ := hplaces t
  rcases ht with ht | ht
  · obtain ⟨k, hk⟩ := exists_call ht
    rw [hk] at hat
    obtain ⟨pl', ⟨hgoes, -⟩, -⟩ := hat () trivial
    cases hgoes with
    | lock => exact hpl.2 m (Or.inl rfl)
    | quiet _ hquiet => exact hquiet.elim
  · obtain ⟨k, hk⟩ := exists_call ht
    rw [hk] at hat
    obtain ⟨pl', ⟨hgoes, -⟩, -⟩ := hat () trivial
    cases hgoes with
    | unlock => exact hpl.2 m (Or.inr rfl)
    | quiet _ hquiet => exact hquiet.elim

end Null

/-- Both find the slot empty and fill it, and each stands before its lock. -/
def bothFill : List (Move HookOp HookRes Unit Bool) :=
  .start false ipc_mqueue_send :: .call false :: .start true (ipc_kmsg_send 0) :: .call true
    :: List.replicate 5 (.call false) ++ List.replicate 4 (.call true)

theorem bothFill_starts : ∀ m ∈ bothFill, m.Starts Hook := by
  simp only [bothFill, List.forall_mem_append, List.forall_mem_cons]
  exact ⟨⟨Or.inl rfl, trivial, Or.inr ⟨0, rfl⟩, trivial, Hook.starts_replicate 5 _⟩,
    Hook.starts_replicate 4 _⟩

/-- The race, in which each is to lock a mutex of its own. -/
theorem never_null_bothFill : ∃ c : State Bool,
    (c.threads false).bind next = some (.lck_mtx_lock 1)
      ∧ (c.threads true).bind next = some (.lck_mtx_lock 2) ∧ (2 : UInt64) ≠ 0 := by
  have hrun : ((Config.boot (Kernel.boot fun _ => [])).play (fun _ _ _ => True) Kernel.answer
      bothFill).map (fun c => ((c.threads false).bind next, (c.threads true).bind next))
      = some (some (.lck_mtx_lock 1), some (.lck_mtx_lock 2)) := by
    decide +kernel
  obtain ⟨c, hplay, hnext⟩ := Option.map_eq_some_iff.mp hrun
  obtain ⟨hfalse, htrue⟩ := Prod.mk.inj hnext
  have hc : Reachable kernelEnv Hook (fun _ _ _ => True) (Kernel.boot fun _ => []) c :=
    Config.steps_of_play Kernel.env_of_answer bothFill bothFill_starts hplay
  exact ⟨c, hfalse, htrue, never_null hc (Or.inl htrue)⟩

/-! ## One holder -/

section Discipline

variable {T : Type}

/-- Where an invocation holds the mutex. -/
def Place.Critical : Place → Prop
  | .inside _ _ | .sized _ _ | .leaving _ => True
  | _ => False

/-- What is true while invocation `t` is at a place; it holds no mutex elsewhere. -/
def Keeps (t : T) (pl : Place) (s : Kernel T) : Prop :=
  Stands t pl s ∧ ∀ m, (m, t) ∈ s.held → pl.Critical

/-- The log as it should be, and one mutex held at most, which is the one in the slot. -/
structure Tidy (initial : List UInt8) (s : Kernel T) : Prop where
  logged : Logged initial s
  slot : ∀ x ∈ s.held, x.1 = s.slot
  single : s.held.length ≤ 1

/-- What a call does to the mutexes held. -/
theorem held_cases {t : T} {op : HookOp} {s s' : Kernel T} {r : HookRes op}
    (henv : kernelEnv t op s r s') :
    (s'.held = s.held)
      ∨ (∃ m, op = .lck_mtx_lock m ∧ (∀ x ∈ s.held, x.1 ≠ m) ∧ s'.held = (m, t) :: s.held)
      ∨ ∃ m, op = .lck_mtx_unlock m ∧ s'.held = s.held.filter fun x => x.1 ≠ m := by
  cases op with
  | lck_mtx_lock m =>
      obtain ⟨-, hfree, rfl⟩ := henv
      exact Or.inr (Or.inl ⟨m, rfl, hfree, rfl⟩)
  | lck_mtx_unlock m =>
      obtain ⟨-, rfl⟩ := henv
      exact Or.inr (Or.inr ⟨m, rfl, rfl⟩)
  | load_global_mtx | lck_mtx_alloc_init | qc_size_file | qc_write_file =>
      obtain ⟨-, -, rfl⟩ := henv
      exact Or.inl rfl
  | _ =>
      obtain ⟨-, rfl⟩ := henv
      exact Or.inl rfl

theorem Tidy.own {initial : List UInt8} {c : State T} {t : T} {pl pl' : Place} {op : HookOp}
    {r : HookRes op} {s : Kernel T} (htidy : Tidy initial c.shared) (hpl : Keeps t pl c.shared)
    (hok : RaceFree c t op) (henv : kernelEnv t op c.shared r s) (hgoes : Goes pl op r pl') :
    Tidy initial s ∧ Keeps t pl' s := by
  obtain ⟨⟨hlog, hslot⟩, hstands⟩ := own_step htidy.logged hpl.1 htidy.slot hok henv hgoes
  refine ⟨⟨hlog, hslot, ?_⟩, hstands, ?_⟩
  · rcases held_cases henv with hheld | ⟨m, rfl, hfree, hheld⟩ | ⟨m, -, hheld⟩
    · exact hheld ▸ htidy.single
    · -- the mutex of the slot is free, and no other is held
      cases hgoes with
      | lock =>
          have hnone : c.shared.held = [] := List.eq_nil_iff_forall_not_mem.mpr fun x hx =>
            hfree x hx ((htidy.slot x hx).trans hpl.1.1)
          rw [hheld, hnone]
          exact le_rfl
      | quiet _ hquiet => exact hquiet.elim
    · rw [hheld]
      exact (List.length_filter_le _ _).trans htidy.single
  · intro m hm
    cases hgoes with
    | lock | size | write | refetch => trivial
    | unlock m' =>
        obtain ⟨-, rfl⟩ := henv
        obtain ⟨-, hholds⟩ := hpl.1
        rw [hholds] at hm
        simp at hm
    | found | empty | fetch =>
        obtain ⟨-, -, rfl⟩ := henv
        exact (hpl.2 m hm).elim
    | make =>
        obtain ⟨-, -, rfl⟩ := henv
        exact (hpl.2 m hm).elim
    | fill =>
        obtain ⟨-, rfl⟩ := henv
        exact (hpl.2 m hm).elim
    | quiet _ hop =>
        obtain rfl := kernelEnv_quiet hop henv
        exact hpl.2 m hm

theorem Keeps.others {c : State T} {t u : T} {pl pl' plu : Place} {op : HookOp} {r : HookRes op}
    {s : Kernel T} (hu : u ≠ t) (hpl : Keeps t pl c.shared) (hok : RaceFree c t op)
    (henv : kernelEnv t op c.shared r s) (hgoes : Goes pl op r pl')
    (hat : IsAt Goes Sensible .test (fun _ => (· = .done)) plu (c.threads u))
    (hplu : Keeps u plu c.shared) : Keeps u plu s := by
  refine ⟨others_step hu hpl.1 hok henv hgoes hat hplu.1, fun m hm => hplu.2 m ?_⟩
  rcases held_cases henv with hheld | ⟨m', -, -, hheld⟩ | ⟨m', -, hheld⟩
  · exact hheld ▸ hm
  · rw [hheld] at hm
    refine (List.mem_cons.mp hm).resolve_left fun heq => hu ?_
    exact (Prod.mk.inj heq).2
  · rw [hheld] at hm
    exact List.mem_of_mem_filter hm

/-! ## Nobody waits for ever -/

/-- The files are not too large for their sizes, and there is a mutex that was not made. -/
structure Kernel.Room (s : Kernel T) : Prop where
  sizes : ∀ i, (s.files i).length < 2 ^ 63
  fresh : ∃ m, m ≠ 0 ∧ m ∉ s.made

/-- Only a lock can wait. -/
theorem Kernel.Room.answers {s : Kernel T} (hroom : s.Room) (t : T) (op : HookOp)
    (hlock : ∀ m, op = .lck_mtx_lock m → ∀ x ∈ s.held, x.1 ≠ m) :
    ∃ r s', kernelEnv t op s r s' := by
  cases op with
  | lck_mtx_lock m => exact ⟨(), _, trivial, hlock m rfl, rfl⟩
  | lck_mtx_alloc_init mtx_grp =>
      obtain ⟨m, hm, hfresh⟩ := hroom.fresh
      exact ⟨m, _, hm, hfresh, rfl⟩
  | qc_size_file index =>
      refine ⟨Int64.ofNat (s.files index).length, s, trivial, ?_, rfl⟩
      exact Int64.toInt_ofNat_of_lt (hroom.sizes index)
  | load_global_mtx => exact ⟨s.slot, s, trivial, rfl, rfl⟩
  | qc_write_file message length offset index =>
      exact ⟨length.toInt64, _, trivial, rfl, rfl⟩
  | store_global_mtx m => exact ⟨(), _, trivial, rfl⟩
  | lck_mtx_unlock m => exact ⟨(), _, trivial, rfl⟩
  | print_ipc_kmsg kmsg message size => exact ⟨[], s, Nat.two_pow_pos 63, rfl⟩
  | _ => exact ⟨default, s, trivial, rfl⟩

/-- An invocation that holds the mutex has not returned, and does not stand before a lock. -/
theorem goes_on_of_critical {pl : Place} {o : Option HookProg}
    (hat : IsAt Goes Sensible .test (fun _ => (· = .done)) pl o) (hpl : pl.Critical) :
    ∃ op k, o = some (call op k) ∧ ∀ m, op ≠ .lck_mtx_lock m := by
  rcases o with - | p
  · obtain rfl : pl = .test := hat
    exact hpl.elim
  · cases p with
    | ret a =>
        obtain rfl : pl = .done := hat
        exact hpl.elim
    | call op k =>
        refine ⟨op, k, rfl, ?_⟩
        rintro m rfl
        obtain ⟨pl', hgoes, -⟩ := hat () trivial
        cases hgoes with
        | lock => exact hpl
        | quiet _ hquiet => exact hquiet

variable [DecidableEq T]

/-- Only finitely many invocations have started. -/
theorem started_finite {ok : State T → T → HookOp → Prop} {s₀ : Kernel T} {c : State T}
    (hc : Reachable kernelEnv Hook ok s₀ c) :
    ∃ ts : Finset T, ∀ t p, c.threads t = some p → t ∈ ts := by
  have hput : ∀ (c : State T) (ts : Finset T) (t : T) (q : HookProg) (s : Kernel T),
      (∀ u p, c.threads u = some p → u ∈ ts) →
      ∀ u p, (c.put t q s).threads u = some p → u ∈ insert t ts := by
    intro c ts t q s hts u p hu
    by_cases hut : u = t
    · rw [hut]
      exact Finset.mem_insert_self t ts
    · rw [Config.put_threads_of_ne _ hut] at hu
      exact Finset.mem_insert_of_mem (hts u p hu)
  induction hc with
  | refl => exact ⟨∅, fun t p h => nomatch h⟩
  | tail _ hstep ih =>
      obtain ⟨ts, hts⟩ := ih
      cases hstep with
      | start _ _ => exact ⟨_, hput _ ts _ _ _ hts⟩
      | call _ _ _ => exact ⟨_, hput _ ts _ _ _ hts⟩

/-- A step at which no invocation starts. -/
abbrev CallStep : State T → State T → Prop := Step kernelEnv (fun _ => False) fun _ _ _ => True

theorem CallStep.moves {c c' : State T} (h : CallStep c c') : Turns.Moves Config.threads c c' := by
  cases h with
  | start _ hp => exact hp.elim
  | @call t op k r s ht _ _ => exact ⟨t, op, k, r, ht, rfl⟩

/-- **The mutex is used as one.** In runs without the race: one mutex is held at most;
only its holder unlocks it; the invocations that have started make finitely many calls,
however they take turns; and where none of them can make another one, all have returned
and no mutex is held. -/
theorem mutex_disciplined {files : UInt64 → List UInt8} {c : State T}
    (hc : Reachable kernelEnv Hook RaceFree (Kernel.boot files) c) :
    c.shared.held.length ≤ 1
      ∧ (∀ t m, (c.threads t).bind next = some (.lck_mtx_unlock m) → c.shared.held = [(m, t)])
      ∧ (¬ ∃ run : ℕ → State T, run 0 = c ∧ ∀ n, CallStep (run n) (run (n + 1)))
      ∧ (c.shared.Room → (∀ c', ¬ CallStep c c') → c.Finished ∧ c.shared.held = []) := by
  have hboot : Tidy (files 2) (Kernel.boot files : Kernel T) :=
    ⟨⟨(List.append_nil _).symm, List.nodup_nil⟩, List.forall_mem_nil _, Nat.zero_le 1⟩
  have htest : ∀ t : T, Stands t .test (Kernel.boot files) := fun _ => List.not_mem_nil
  obtain ⟨htidy, hplaces⟩ := hc.places (S := Keeps) (G := Tidy (files 2)) hboot
    (fun t => ⟨htest t, fun m hm => absurd hm List.not_mem_nil⟩)
    (fun p hp => hp.obeys) (fun t op s r s' h => h.1)
    (fun c t pl pl' op r s hG hpl hok henv hgoes => hG.own hpl hok henv hgoes)
    fun c t u pl pl' plu op r s hu hpl hok henv hgoes hat hplu =>
      Keeps.others hu hpl hok henv hgoes hat hplu
  refine ⟨htidy.single, fun t m ht => ?_, ?_, fun hroom hlast => ?_⟩
  · obtain ⟨pl, hat, hpl, -⟩ := hplaces t
    obtain ⟨k, hk⟩ := exists_call ht
    rw [hk] at hat
    obtain ⟨pl', hgoes, -⟩ := hat () trivial
    cases hgoes with
    | unlock => exact hpl.2
    | quiet _ hquiet => exact hquiet.elim
  · obtain ⟨ts, hts⟩ := started_finite hc
    exact Turns.Moves.no_endless_run (fun _ _ hstep => CallStep.moves hstep) ts hts
  · -- whoever can be answered could go on
    have hstuck : ∀ t op k, c.threads t = some (call op k) →
        ¬ ∀ m, op = .lck_mtx_lock m → ∀ x ∈ c.shared.held, x.1 ≠ m := by
      intro t op k ht hlock
      obtain ⟨r, s', henv⟩ := hroom.answers t op hlock
      exact hlast _ (Step.call ht trivial henv)
    have hnone : c.shared.held = [] := by
      refine List.eq_nil_iff_forall_not_mem.mpr fun x hx => ?_
      obtain ⟨m, t⟩ := x
      obtain ⟨pl, hat, -, hholds⟩ := hplaces t
      obtain ⟨op, k, ht, hop⟩ := goes_on_of_critical hat (hholds m hx)
      exact hstuck t op k ht fun m' h => absurd h (hop m')
    refine ⟨fun t p ht => ?_, hnone⟩
    cases p with
    | ret a => rfl
    | call op k =>
        refine absurd (fun m _ x hx => ?_) (hstuck t op k ht)
        rw [hnone] at hx
        cases hx

end Discipline

/-- The first invocation stands before its unlock, the second before its lock. -/
def waiting : List (Move HookOp HookRes Unit Bool) :=
  .start false ipc_mqueue_send :: List.replicate 7 (.call false)
    ++ .start true (ipc_kmsg_send 0) :: List.replicate 2 (.call true)
    ++ List.replicate 6 (.call false)

theorem waiting_starts : ∀ m ∈ waiting, m.Starts Hook := by
  simp only [waiting, List.forall_mem_append, List.forall_mem_cons]
  exact ⟨⟨⟨Or.inl rfl, Hook.starts_replicate 7 _⟩, Or.inr ⟨0, rfl⟩, Hook.starts_replicate 2 _⟩,
    Hook.starts_replicate 6 _⟩

/-- What the first is to unlock is the mutex it holds. -/
theorem mutex_disciplined_waiting : ∃ c : State Bool,
    (c.threads true).bind next = some (.lck_mtx_lock 1) ∧ c.shared.held = [(1, false)] := by
  have hrun : ((Config.boot (Kernel.boot fun _ => [])).play RaceFree Kernel.answer waiting).map
      (fun c => ((c.threads false).bind next, (c.threads true).bind next))
      = some (some (.lck_mtx_unlock 1), some (.lck_mtx_lock 1)) := by
    decide +kernel
  obtain ⟨c, hplay, hnext⟩ := Option.map_eq_some_iff.mp hrun
  obtain ⟨hfalse, htrue⟩ := Prod.mk.inj hnext
  have hc : Reachable kernelEnv Hook RaceFree (Kernel.boot fun _ => []) c :=
    Config.steps_of_play Kernel.env_of_answer waiting waiting_starts hplay
  exact ⟨c, htrue, (mutex_disciplined hc).2.1 false 1 hfalse⟩

end XnuQemuTools.LogHooks

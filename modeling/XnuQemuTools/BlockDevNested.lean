/-
Requests from completion actions.

`doAsyncReadWrite` calls the completion action before it gives the mutex back, and the action
is the caller's: it may submit requests of its own, whose actions submit requests again.
`Action` is such a program, a tree as deep as it likes, and `Action.run` is what its thread
does: `doAsyncReadWrite`, with the action in the place of the call of it. The thread has the
mutexes it holds, and `lck_mtx_lock` does not answer for one of them.

`Action.Clear` is that no request is to a device whose mutex the thread holds by then, and
with it no thread waits for itself (`Action.run_clear`). A request that is not clear takes
the mutex it holds as its next call (`submit_blocked`).
-/
import XnuQemuTools.BlockDevBounds

set_option autoImplicit false

namespace XnuQemuTools.BlockDev

open Calls Calls.Prog

/-! ## Actions -/

section Nested

variable {Other : Type} {Ans : Other → Type}

/-- A completion action, or any other code that submits requests: calls of `Other`, which do
not concern block devices, and requests. The action of a request is given its four parameters
`target`, `parameter`, `status` and `byteCount`; `rest` is what follows the request. -/
inductive Action (Other : Type) (Ans : Other → Type) : Type where
  | done
  | other (op : Other) (k : Ans op → Action Other Ans)
  | submit (members : AlephBDevMembers) (block nblks : UInt64) (completion : Option Completion)
      (action : UInt64 → UInt64 → UInt64 → UInt64 → Action Other Ans)
      (rest : UInt64 → Action Other Ans)

/-- The calls of a thread. -/
inductive ThreadOp (Other : Type) : Type where
  | bdev (op : BdevOp)
  | other (op : Other)

/-- What they answer. -/
abbrev ThreadRes (Ans : Other → Type) : ThreadOp Other → Type
  | .bdev op => BdevRes op
  | .other op => Ans op

/-- What a thread runs. -/
abbrev ThreadProg (Ans : Other → Type) : Type → Type := Prog (ThreadOp Other) (ThreadRes Ans)

/-- The calls of a request, with `action` in the place of the completion action. -/
def nest (action : UInt64 → UInt64 → UInt64 → UInt64 → ThreadProg Ans Unit) :
    (op : BdevOp) → ThreadProg Ans (BdevRes op)
  | .completionAction _ target parameter status byteCount =>
      action target parameter status byteCount
  | op => perform (ThreadOp.bdev op)

/-- What the thread does. -/
def Action.run : Action Other Ans → ThreadProg Ans Unit
  | .done => pure ()
  | .other op k => do
      let r ← perform (ThreadOp.other op)
      (k r).run
  | .submit members block nblks completion action rest => do
      let status ← interpret (nest fun target parameter status byteCount =>
        (action target parameter status byteCount).run)
        (doAsyncReadWrite members block nblks completion)
      (rest status).run

/-- The mutexes that the thread holds, and how its calls change them. It waits for ever on
one it holds. -/
def threadEnv : Env (ThreadOp Other) (ThreadRes Ans) (List UInt64)
  | .bdev (.lck_mtx_lock m), held, _, held' => m ∉ held ∧ held' = m :: held
  | .bdev (.lck_mtx_unlock m), held, _, held' => held' = held.erase m
  | _, held, _, held' => held' = held

/-- The thread is not about to wait for itself. -/
def NoSelfWait (o : Option (ThreadOp Other)) (held : List UInt64) : Prop :=
  ∀ m, o = some (.bdev (.lck_mtx_lock m)) → m ∉ held

/-- No request is to a device whose mutex is held when it is made. -/
def Action.Clear : Action Other Ans → List UInt64 → Prop
  | .done, _ => True
  | .other _ k, held => ∀ r, (k r).Clear held
  | .submit members _ _ completion action rest, held =>
      members.lck_mtx ∉ held
        ∧ (∀ c ∈ completion, ∀ byteCount,
          (action c.target c.parameter 0 byteCount).Clear (members.lck_mtx :: held))
        ∧ (rest 0).Clear held

/-! ## A request -/

/-- A call that concerns neither a mutex nor the completion. -/
def BdevOp.Plain : BdevOp → Prop
  | .lck_mtx_lock _ => False
  | .lck_mtx_unlock _ => False
  | .completionAction _ _ _ _ _ => False
  | _ => True

/-- A piece of a request that makes plain calls only. -/
def Plain {α : Type} : BdevProg α → Prop
  | .ret _ => True
  | .call op k => op.Plain ∧ ∀ r, Plain (k r)

theorem cancel_plain {α : Type} : Plain (cancel : BdevProg α) := ⟨trivial, fun never => never.elim⟩

theorem readLoop_plain (members : AlephBDevMembers) (block : UInt64) (n : ℕ) :
    ∀ i byte_count : UInt64, Plain (readLoop members block n i byte_count) := by
  induction n with
  | zero => exact fun _ _ => trivial
  | succ n ih =>
      intro i byte_count
      rw [readLoop_succ]
      cases guardFires members.size block i with
      | false =>
          rw [if_neg Bool.false_ne_true]
          exact ⟨trivial, fun _ => ⟨trivial, fun _ => ih _ _⟩⟩
      | true => exact cancel_plain

theorem writeLoop_plain (members : AlephBDevMembers) (block : UInt64) (n : ℕ) :
    ∀ i byte_count : UInt64, Plain (writeLoop members block n i byte_count) := by
  induction n with
  | zero => exact fun _ _ => trivial
  | succ n ih =>
      intro i byte_count
      rw [writeLoop_succ]
      cases guardFires members.size block i with
      | false =>
          rw [if_neg Bool.false_ne_true]
          exact ⟨trivial, fun _ => ⟨trivial, fun _ => ih _ _⟩⟩
      | true => exact cancel_plain

theorem transfer_plain (members : AlephBDevMembers) (block nblks direction : UInt64) :
    Plain (transfer members block nblks direction) := by
  unfold transfer
  split
  · exact readLoop_plain members block nblks.toNat 0 0
  · split
    · exact writeLoop_plain members block nblks.toNat 0 0
    · exact cancel_plain

section Request

variable {action : UInt64 → UInt64 → UInt64 → UInt64 → ThreadProg Ans Unit} {held : List UInt64}

/-- Plain calls leave the mutexes alone. -/
theorem Plain.nest_always {α : Type} {p : BdevProg α} (h : Plain p) :
    Always threadEnv NoSelfWait (fun _ held' => held' = held) (interpret (nest action) p) held := by
  induction p with
  | ret a => exact always_ret.mpr ⟨fun m hm => (nomatch hm), rfl⟩
  | call op k ih =>
      obtain ⟨hop, hk⟩ := h
      cases op with
      | lck_mtx_lock m => exact hop.elim
      | lck_mtx_unlock m => exact hop.elim
      | completionAction a target parameter status byteCount => exact hop.elim
      | _ =>
          refine always_call.mpr ⟨fun m hm => (nomatch hm), ?_⟩
          rintro r held' rfl
          exact ih r (hk r)

/-- **A request.** Where its own mutex is free, and its action is fine with that mutex held, it
returns 0 with the mutexes as they were. -/
theorem doAsyncReadWrite_nested {members : AlephBDevMembers} {block nblks : UInt64}
    {completion : Option Completion} (hfree : members.lck_mtx ∉ held)
    (haction : ∀ c ∈ completion, ∀ byteCount,
      Always threadEnv NoSelfWait (fun _ held' => held' = members.lck_mtx :: held)
        (action c.target c.parameter 0 byteCount) (members.lck_mtx :: held)) :
    Always threadEnv NoSelfWait (fun status held' => status = 0 ∧ held' = held)
      (interpret (nest action) (doAsyncReadWrite members block nblks completion)) held := by
  have hquiet : ∀ {op : ThreadOp Other} {held' : List UInt64},
      (∀ m, op ≠ .bdev (.lck_mtx_lock m)) → NoSelfWait (some op) held' :=
    fun hop m hm => absurd (Option.some.inj hm) (hop m)
  unfold doAsyncReadWrite
  refine always_call.mpr ⟨?_, ?_⟩
  · rintro m ⟨⟩
    exact hfree
  · rintro - held' ⟨-, rfl⟩
    refine always_call.mpr ⟨hquiet fun m => by rintro ⟨⟩, ?_⟩
    rintro direction held' rfl
    show Always _ _ _ (interpret (nest action) (transfer members block nblks direction >>= _)) _
    rw [interpret_bind]
    refine always_bind _ _ _ ((transfer_plain members block nblks direction).nest_always.mono
      (fun _ _ h => h) ?_)
    rintro byte_count held' - rfl
    -- the action, with the mutex held, and then the mutex is given back
    have hcomplete : Always threadEnv NoSelfWait
        (fun _ held' => held' = members.lck_mtx :: held)
        (interpret (nest action) (complete completion byte_count)) (members.lck_mtx :: held) := by
      cases completion with
      | none => exact always_ret.mpr ⟨fun m hm => (nomatch hm), rfl⟩
      | some c =>
          show Always _ _ _ (action c.target c.parameter 0 byte_count >>= ret) _
          rw [bind_ret]
          exact haction c rfl byte_count
    show Always _ _ _ (interpret (nest action) (complete completion byte_count >>= _)) _
    rw [interpret_bind]
    refine always_bind _ _ _ (hcomplete.mono (fun _ _ h => h) ?_)
    rintro - held' - rfl
    refine always_call.mpr ⟨hquiet fun m => by rintro ⟨⟩, ?_⟩
    rintro - held' rfl
    exact always_ret.mpr ⟨fun m hm => (nomatch hm), rfl, List.erase_cons_head ..⟩

end Request

/-! ## Nested requests -/

/-- **No thread waits for itself.** An action that is clear never takes a mutex that its thread
holds, and leaves the mutexes as they were; by induction on the tree of its requests. -/
theorem Action.run_clear (a : Action Other Ans) : ∀ {held : List UInt64}, a.Clear held →
    Always threadEnv NoSelfWait (fun _ held' => held' = held) a.run held := by
  induction a with
  | done => exact fun _ => always_ret.mpr ⟨fun m hm => (nomatch hm), rfl⟩
  | other op k ih =>
      intro held h
      refine always_call.mpr ⟨fun m hm => (nomatch hm), ?_⟩
      rintro r held' rfl
      exact ih r (h r)
  | submit members block nblks completion action rest ihaction ihrest =>
      rintro held ⟨hfree, haction, hrest⟩
      refine always_bind _ _ held ((doAsyncReadWrite_nested hfree fun c hc byteCount =>
        ihaction _ _ _ _ (haction c hc byteCount)).mono (fun _ _ h => h) ?_)
      rintro status held' - ⟨rfl, rfl⟩
      exact ihrest 0 hrest

/-- A request to a device whose mutex is held waits for ever: its first call takes the mutex,
and there is no answer to it. -/
theorem submit_blocked {held : List UInt64} {members : AlephBDevMembers}
    (hheld : members.lck_mtx ∈ held) (block nblks : UInt64) (completion : Option Completion)
    (action : UInt64 → UInt64 → UInt64 → UInt64 → Action Other Ans)
    (rest : UInt64 → Action Other Ans) :
    ∃ op k, (Action.submit members block nblks completion action rest).run = call op k
      ∧ ¬ NoSelfWait (some op) held
      ∧ ∀ r held', ¬ (threadEnv : Env (ThreadOp Other) (ThreadRes Ans) _) op held r held' :=
  ⟨_, _, rfl, fun h => h _ rfl hheld, fun _ _ h => h.1 hheld⟩

/-- **Requests with clear actions.** A thread that holds nothing never takes a mutex that it
holds, and holds nothing when it is done. -/
theorem request_clear (a : Action Other Ans) (h : a.Clear []) :
    Always threadEnv NoSelfWait (fun _ held => held = []) a.run [] := a.run_clear h

end Nested

/-! ## Two actions -/

section Example

/-- A completion, whose action is given with the request. -/
def someCompletion : Completion := ⟨1, 2, 3⟩

/-- A request for the first block of a device, whose action requests the first block of another. -/
def firstBlocks (members members' : AlephBDevMembers) : Action Empty Empty.elim :=
  .submit members 0 1 (some someCompletion)
    (fun _ _ _ _ => .submit members' 0 1 none (fun _ _ _ _ => .done) fun _ => .done) fun _ => .done

/-- Two devices. -/
theorem request_clear_two : Always threadEnv NoSelfWait (fun _ held => held = [])
    (firstBlocks (newDevice 0 4096 1 2) (newDevice 1 4096 3 4)).run [] := by
  refine request_clear _ ⟨List.not_mem_nil, fun c hc byteCount => ⟨?_, ?_, trivial⟩, trivial⟩
  · show (4 : UInt64) ∉ [(2 : UInt64)]
    decide
  · exact fun _ hnone => (nomatch hnone)

/-- The same device. Its mutex is taken again by the action. -/
theorem request_same_device : ¬ ∀ a : Action Empty Empty.elim,
    Always threadEnv NoSelfWait (fun _ held => held = []) a.run [] := by
  intro hall
  -- lock, direction, file to bounce buffer, bounce buffer to descriptor
  have hlock := (hall (firstBlocks (newDevice 0 4096 1 2) (newDevice 0 4096 1 2))).2 () [2]
    ⟨List.not_mem_nil, rfl⟩
  have hdirection := hlock.2 kIODirectionIn [2] rfl
  have hread := hdirection.2 (4096 : Int64) [2] rfl
  have hwrite := hread.2 (4096 : UInt64) [2] rfl
  -- the action's request locks again
  exact hwrite.1 2 rfl (List.mem_singleton_self 2)

end Example

end XnuQemuTools.BlockDev

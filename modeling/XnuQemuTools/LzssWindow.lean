/-
The accesses of `decompress_lzss` to `text_buf`, and how the function ends.

`text_buf` has `N + F - 1` cells, and the model of the loop has it as a memory without an
end. `Traced` is the same loop with a record of the indices it accesses, up to a raise if
there is one; without the record it is the loop (`iteration_result`). All of them are
below `N`: the reads are masked and `r` is kept there (`iteration_accesses`).

`decompress_lzss_ends` puts the bounds of the three cursors together. The window has
none to exceed, the source is read up to `srclen` or to its own end, and the output is
the expansion of the complete tokens.
-/
import XnuQemuTools.LzssStream

set_option autoImplicit false

namespace XnuQemuTools.Lzss

open Loop Memory Python

/-! ## The loop with its accesses -/

/-- What a piece of the loop comes to, and the indices of `text_buf` that it accesses. -/
structure Traced (α : Type) where
  accesses : List ℕ
  result : Except PyError α

namespace Traced

variable {α β : Type}

instance : Monad Traced where
  pure a := ⟨[], .ok a⟩
  bind x f :=
    match x.result with
    | .ok a => ⟨x.accesses ++ (f a).accesses, (f a).result⟩
    | .error e => ⟨x.accesses, .error e⟩

/-- A piece that does not access `text_buf`. -/
def lift (x : Except PyError α) : Traced α := ⟨[], x⟩

/-- An access to `text_buf[i]`. -/
def touch (i : ℕ) : Traced Unit := ⟨[i], .ok ()⟩

/-- `dst[dstidx] = c`, and then `text_buf[r] = c`. -/
def emit (c : UInt8) (s : State) : Traced State := do
  let s' ← lift (Lzss.emit c s)
  touch s.r
  return s'

/-- `n` iterations of the copy loop, from `k` on. -/
def copyLoop (i : ℕ) : ℕ → ℕ → State → Traced State
  | 0, _, s => pure s
  | n + 1, k, s => do
      touch ((i + k) &&& (N - 1))
      let s ← emit (s.text_buf ((i + k) &&& (N - 1))) s
      copyLoop i n (k + 1) s

/-- The branch for a literal. -/
def literal (source : Source) (s : State) : Traced (Option State) := do
  match ← lift (fetch source s) with
  | none => return none
  | some (c, s) =>
      let s ← emit c s
      return some s

/-- The branch for a reference. -/
def reference (source : Source) (s : State) : Traced (Option State) := do
  match ← lift (fetch source s) with
  | none => return none
  | some (i, s) =>
      match ← lift (fetch source s) with
      | none => return none
      | some (j, s) =>
          let i := i.toNat ||| ((j.toNat &&& 0xF0) <<< 4)
          let j := (j.toNat &&& 0x0F) + THRESHOLD
          let s ← copyLoop i (j + 1) 0 s
          return some s

/-- The two branches. -/
def token (source : Source) (s : State) : Traced (Option State) :=
  if s.flags &&& 1 ≠ 0 then literal source s else reference source s

/-- The body of `while True:`. -/
def iteration (source : Source) (s : State) : Traced (Step State Bytes) := do
  match ← lift (refill source s) with
  | none => return .stop s.dst
  | some s₁ =>
      match ← token source s₁ with
      | none => return .stop s.dst
      | some s₂ => return .next s₂

/-! ## Without the record -/

@[simp] theorem result_lift (x : Except PyError α) : (lift x).result = x := rfl

@[simp] theorem result_bind (x : Traced α) (f : α → Traced β) :
    (x >>= f).result = x.result >>= fun a => (f a).result := by
  show (match x.result with
    | .ok a => (⟨x.accesses ++ (f a).accesses, (f a).result⟩ : Traced β)
    | .error e => ⟨x.accesses, .error e⟩).result = _
  cases x.result <;> rfl

theorem emit_result (c : UInt8) (s : State) : (emit c s).result = Lzss.emit c s := by
  rw [emit, result_bind, result_lift]
  cases Lzss.emit c s <;> rfl

theorem copyLoop_result (i n : ℕ) : ∀ (k : ℕ) (s : State),
    (copyLoop i n k s).result = Lzss.copyLoop i n k s := by
  induction n with
  | zero => exact fun _ _ => rfl
  | succ n ih =>
      intro k s
      rw [copyLoop, result_bind, Lzss.copyLoop]
      show ((emit _ s >>= _).result) = _
      rw [result_bind, emit_result]
      exact bind_congr fun s' => ih (k + 1) s'

theorem literal_result (source : Source) (s : State) :
    (literal source s).result = Lzss.literal source s := by
  rw [literal, result_bind, Lzss.literal]
  refine bind_congr fun r => ?_
  cases r with
  | none => rfl
  | some x =>
      show (emit x.1 x.2 >>= _).result = _
      rw [result_bind, emit_result]
      rfl

theorem reference_result (source : Source) (s : State) :
    (reference source s).result = Lzss.reference source s := by
  rw [reference, result_bind, Lzss.reference]
  refine bind_congr fun r => ?_
  cases r with
  | none => rfl
  | some x =>
      show (lift (fetch source x.2) >>= _).result = _
      rw [result_bind]
      refine bind_congr fun r => ?_
      cases r with
      | none => rfl
      | some y =>
          show (copyLoop _ _ 0 y.2 >>= _).result = _
          rw [result_bind, copyLoop_result]
          rfl

/-- **It is the loop of the script.** -/
theorem iteration_result (source : Source) (s : State) :
    (iteration source s).result = Lzss.iteration source s := by
  have htoken : ∀ s₁, (token source s₁).result = Lzss.token source s₁ := by
    intro s₁
    unfold token Lzss.token
    split
    · exact literal_result source s₁
    · exact reference_result source s₁
  rw [iteration, result_bind, Lzss.iteration]
  refine bind_congr fun r => ?_
  cases r with
  | none => rfl
  | some s₁ =>
      show (token source s₁ >>= _).result = _
      rw [result_bind, htoken]
      refine bind_congr fun r => ?_
      cases r <;> rfl

/-! ## The window -/

/-- All accesses are below `N`, and `P` holds of what is returned. -/
def Inside (P : α → Prop) (x : Traced α) : Prop :=
  (∀ i ∈ x.accesses, i < N) ∧ ∀ a, x.result = .ok a → P a

theorem inside_pure {P : α → Prop} {a : α} (ha : P a) : Inside P (pure a) := by
  refine ⟨List.forall_mem_nil _, fun a' ha' => ?_⟩
  obtain rfl := Except.ok.inj ha'
  exact ha

theorem inside_lift {P : α → Prop} {x : Except PyError α} (hx : Indexed P x) :
    Inside P (lift x) := by
  refine ⟨List.forall_mem_nil _, fun a ha => ?_⟩
  obtain rfl : x = .ok a := ha
  exact hx

theorem inside_touch {i : ℕ} (hi : i < N) : Inside (fun _ => True) (touch i) :=
  ⟨List.forall_mem_singleton.mpr hi, fun _ _ => trivial⟩

theorem Inside.bind {P : α → Prop} {Q : β → Prop} {x : Traced α} {f : α → Traced β}
    (hx : Inside P x) (hf : ∀ a, P a → Inside Q (f a)) : Inside Q (x >>= f) := by
  obtain ⟨accesses, result⟩ := x
  cases result with
  | error e => exact ⟨hx.1, fun _ h => nomatch h⟩
  | ok a =>
      have hrest := hf a (hx.2 a rfl)
      exact ⟨List.forall_mem_append.mpr ⟨hx.1, hrest.1⟩, hrest.2⟩

theorem mask_lt (x : ℕ) : x &&& (N - 1) < N := by
  rw [mask_N]
  exact Nat.mod_lt x (by decide)

theorem emit_window (c : UInt8) (s : State) : Indexed (fun s' => s'.r < N) (Lzss.emit c s) :=
  (emit_indexed c s).mono fun s' hs' => by
    rw [hs']
    exact mask_lt (s.r + 1)

theorem keeps_window (source : Source) : Keeps source (fun s => s.r < N) True where
  flags _ _ hs := hs
  fetch s hs := (fetch_indexed source s).mono fun r hr => by
    cases r with
    | none => trivial
    | some x =>
        obtain ⟨-, hx⟩ := hr
        show x.2.r < N
        rw [hx]
        exact hs
  emit c s _ := emit_window c s

variable {source : Source} {s : State}

theorem emit_inside (c : UInt8) (hs : s.r < N) : Inside (fun s' => s'.r < N) (emit c s) :=
  (inside_lift (emit_window c s)).bind fun _ hs' =>
    (inside_touch hs).bind fun _ _ => inside_pure hs'

theorem copyLoop_inside (i n : ℕ) : ∀ {k : ℕ} {s : State}, s.r < N →
    Inside (fun s' => s'.r < N) (copyLoop i n k s) := by
  induction n with
  | zero => exact fun hs => inside_pure hs
  | succ n ih =>
      intro k s hs
      refine (inside_touch (mask_lt (i + k))).bind fun _ _ => ?_
      exact (emit_inside _ hs).bind fun s' hs' => ih hs'

theorem literal_inside (hs : s.r < N) :
    Inside (Found (fun s' => s'.r < N) True) (literal source s) := by
  refine (inside_lift ((keeps_window source).fetch s hs)).bind fun r hr => ?_
  cases r with
  | none => exact inside_pure trivial
  | some x => exact (emit_inside _ hr).bind fun s' hs' => inside_pure hs'

theorem reference_inside (hs : s.r < N) :
    Inside (Found (fun s' => s'.r < N) True) (reference source s) := by
  refine (inside_lift ((keeps_window source).fetch s hs)).bind fun r hr => ?_
  cases r with
  | none => exact inside_pure trivial
  | some x =>
      refine (inside_lift ((keeps_window source).fetch x.2 hr)).bind fun r hr => ?_
      cases r with
      | none => exact inside_pure trivial
      | some y => exact (copyLoop_inside _ _ hr).bind fun s' hs' => inside_pure hs'

/-- **The window is not exceeded**, and `r` stays in it. -/
theorem iteration_inside (hs : s.r < N) :
    Inside (fun step => match step with | .stop _ => True | .next s' => s'.r < N)
      (iteration source s) := by
  refine (inside_lift (refill_indexed (keeps_window source) hs)).bind fun r hr => ?_
  cases r with
  | none => exact inside_pure trivial
  | some s₁ =>
      have htoken : Inside (Found (fun s' => s'.r < N) True) (token source s₁) :=
        iteInduction (fun _ => literal_inside hr) fun _ => reference_inside hr
      refine htoken.bind fun r hr => ?_
      cases r with
      | none => exact inside_pure trivial
      | some s₂ => exact inside_pure hr

/-- Wherever the loop gets to, its next accesses to `text_buf` are below `N`. -/
theorem reaches_inside {decompsize : ℕ}
    (h : Reaches (Lzss.iteration source) (State.start decompsize) s) :
    ∀ i ∈ (iteration source s).accesses, i < N := by
  have hr : s.r < N := by
    refine h.invariant (P := fun s => s.r < N) (fun s s' hs hbody => ?_) (by decide : N - F < N)
    rw [← iteration_result] at hbody
    exact (iteration_inside hs).2 _ hbody
  exact (iteration_inside hr).1

end Traced

/-! ## How the function ends -/

/-- **All ends of `decompress_lzss`.** With a header, the loop stays inside `text_buf` and
ends. It raises an `IndexError` if, and only if, the file has fewer than `srclen` bytes
behind the header or their complete tokens expand to more than `decompsize` bytes; and
otherwise it returns `decompsize` bytes that begin with the expansion. -/
theorem decompress_lzss_ends {data : Bytes} (hmagic : slice data 0 8 = magic)
    (hlen : 20 ≤ data.length) :
    ∃ decompsize srclen, Header data decompsize srclen
      ∧ (∀ s, Reaches (iteration ⟨data.drop 0x180, srclen⟩) (State.start decompsize) s →
          ∀ i ∈ (Traced.iteration ⟨data.drop 0x180, srclen⟩ s).accesses, i < N)
      ∧ ∃ result, (∀ fuel, srclen < fuel → decompress_lzss fuel data = some result)
        ∧ (result = .error .IndexError ↔ data.length - 0x180 < srclen
            ∨ decompsize < (expand (tokens (payload data srclen))).length)
        ∧ (result ≠ .error .IndexError → ∃ bytes, result = .ok (.returned bytes)
            ∧ bytes.length = decompsize ∧ expand (tokens (payload data srclen)) <+: bytes) := by
  obtain ⟨decompsize, srclen, h⟩ := exists_header hmagic hlen
  refine ⟨decompsize, srclen, h, fun s hs => Traced.reaches_inside hs, ?_⟩
  have hdrop : (data.drop 0x180).length = data.length - 0x180 := List.length_drop
  rcases Nat.lt_or_ge (data.length - 0x180) srclen with hshort | hwhole
  · refine ⟨_, fun fuel hfuel => h.decompress_lzss_short (hdrop ▸ hshort) hfuel, ?_, ?_⟩
    · exact iff_of_true rfl (Or.inl hshort)
    · exact fun hne => absurd rfl hne
  · refine ⟨_, fun fuel hfuel => h.decompress_lzss_whole (hdrop ▸ hwhole) hfuel, ?_⟩
    have hexpand : (expand (tokens (payload data srclen))).length
        = ((tokens (payload data srclen)).foldl Token.apply []).length := List.length_reverse
    rw [hexpand, outcome]
    split
    · rename_i hfits
      refine ⟨iff_of_false (by rintro ⟨⟩) (by omega), fun _ => ⟨_, rfl, ?_, ?_⟩⟩
      · rw [List.length_append, List.length_reverse, List.length_replicate]
        omega
      · exact List.prefix_append _ _
    · rename_i hlong
      exact ⟨iff_of_true rfl (Or.inr (by omega)), fun hne => absurd rfl hne⟩

/-- The cut file has its three bytes, and they expand to one: it is returned. -/
theorem decompress_lzss_ends_cut : ∃ srclen result,
    (∀ fuel, srclen < fuel → decompress_lzss fuel cutFile = some result)
      ∧ result ≠ .error .IndexError
      ∧ ∃ bytes, result = .ok (.returned bytes) ∧ bytes.length = 6 := by
  obtain ⟨decompsize, srclen, h, -, result, hruns, hraises, hreturns⟩ :=
    @decompress_lzss_ends cutFile rfl (by decide +kernel)
  have hdecompsize : decompsize = 6 := Except.ok.inj (h.decompsize.symm.trans rfl)
  have hsrclen : srclen = 3 := Except.ok.inj (h.srclen.symm.trans rfl)
  subst hdecompsize hsrclen
  have hno : ¬ (cutFile.length - 0x180 < 3 ∨ 6 < (expand (tokens (payload cutFile 3))).length) := by
    decide +kernel
  have hne := mt hraises.mp hno
  obtain ⟨bytes, hbytes, hsize, -⟩ := hreturns hne
  exact ⟨3, result, hruns, hne, bytes, hbytes, hsize⟩

end XnuQemuTools.Lzss

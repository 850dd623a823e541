/-
What `decompress_lzss` does with a stream of any bytes.

`tokens` reads a stream for as long as there are complete tokens. It is the longest
layout that the stream begins with (`tokens_laid`, `tokens_longest`), so on a complzss
file it gives back the tokens of the file.

The function knows two lengths from the header and checks neither against the stream.
What comes of it is settled by one induction over the iterations
(`whileTrue_tokensFrom`): the expansion of the complete tokens is in `dst` from the start
on, and what is not reached keeps the spaces of the beginning; if the expansion is
longer than `dst`, some token raises. A file that ends before `srclen` raises as well,
since the loop leaves only at `srclen` (`whileTrue_short`). Everything that is raised is
an `IndexError`; `Indexed` is the rule for that.
-/
import XnuQemuTools.LzssTokens

set_option autoImplicit false

namespace XnuQemuTools.Lzss

open Loop Memory Python

/-! ## Complete tokens -/

/-- The reference that two bytes spell. -/
def Token.ofBytes (i j : UInt8) : Token :=
  .ref (i.toNat + j.toNat / 16 * 256) (j.toNat % 16 + 3)
    (by have hi := i.toNat_lt; have hj := j.toNat_lt; omega) (by omega)

/-- The complete tokens of a stream when `k` slots of the flag byte `f` are used up. -/
def tokensFrom : ℕ → UInt8 → Bytes → List Token
  | _, _, [] => []
  | k, f, c :: bs =>
      if k < 8 then
        if f.toNat.testBit k then .lit c :: tokensFrom (k + 1) f bs
        else
          match bs with
          | [] => []
          | j :: bs => Token.ofBytes c j :: tokensFrom (k + 1) f bs
      else tokensFrom 0 c bs

/-- The complete tokens of a stream. -/
def tokens (bs : Bytes) : List Token := tokensFrom 8 0 bs

/-- The token at the head of a stream, and what is behind it. -/
def nextToken (isLiteral : Bool) (bs : Bytes) : Option (Token × Bytes) :=
  match isLiteral, bs with
  | true, c :: bs => some (.lit c, bs)
  | false, i :: j :: bs => some (Token.ofBytes i j, bs)
  | _, _ => none

theorem Token.bytes_ofBytes (i j : UInt8) : (Token.ofBytes i j).bytes = [i, j] := by
  have hi := i.toNat_lt
  have hj := j.toNat_lt
  have hlow : (i.toNat + j.toNat / 16 * 256) % 256 = i.toNat := by omega
  have hhigh : (i.toNat + j.toNat / 16 * 256) / 256 * 16 + (j.toNat % 16 + 3 - 3) = j.toNat := by
    omega
  rw [Token.ofBytes, Token.bytes, hlow, hhigh, UInt8.ofNat_toNat, UInt8.ofNat_toNat]

theorem nextToken_bytes {isLiteral : Bool} {bs rest : Bytes} {t : Token}
    (h : nextToken isLiteral bs = some (t, rest)) :
    t.isLiteral = isLiteral ∧ bs = t.bytes ++ rest := by
  unfold nextToken at h
  split at h
  · obtain ⟨rfl, rfl⟩ := Prod.mk.inj (Option.some.inj h)
    exact ⟨rfl, rfl⟩
  · obtain ⟨rfl, rfl⟩ := Prod.mk.inj (Option.some.inj h)
    exact ⟨rfl, by rw [Token.bytes_ofBytes]; rfl⟩
  · cases h

/-- Two bytes of a reference spell it. -/
theorem Token.ofBytes_bytes {p L : ℕ} (hp : p < 4096) (hL : 3 ≤ L ∧ L ≤ 18) :
    Token.ofBytes (UInt8.ofNat (p % 256)) (UInt8.ofNat (p / 256 * 16 + (L - 3)))
      = .ref p L hp hL := by
  have hpos : p % 256 + (p / 256 * 16 + (L - 3)) / 16 * 256 = p := by omega
  have hlen : (p / 256 * 16 + (L - 3)) % 16 + 3 = L := by omega
  simp only [Token.ofBytes, toNat_ofNat_byte (show p % 256 < 256 by omega),
    toNat_ofNat_byte (show p / 256 * 16 + (L - 3) < 256 by omega), hpos, hlen]

theorem nextToken_append (t : Token) (rest : Bytes) :
    nextToken t.isLiteral (t.bytes ++ rest) = some (t, rest) := by
  cases t with
  | lit c => rfl
  | ref p L hp hL =>
      show some (Token.ofBytes _ _, rest) = _
      rw [Token.ofBytes_bytes hp hL]

/-- Within a group, the tokens are the one of the next slot and the rest. -/
theorem tokensFrom_slot {k : ℕ} (hk : k < 8) (f : UInt8) (bs : Bytes) :
    tokensFrom k f bs = match nextToken (f.toNat.testBit k) bs with
      | none => []
      | some (t, rest) => t :: tokensFrom (k + 1) f rest := by
  cases bs with
  | nil =>
      cases f.toNat.testBit k <;> rfl
  | cons c bs =>
      rw [tokensFrom.eq_def]
      simp only [if_pos hk]
      cases f.toNat.testBit k with
      | true => rfl
      | false => cases bs <;> rfl

/-- Behind a full group the next byte is a flag byte. -/
theorem tokensFrom_group (f g : UInt8) (bs : Bytes) :
    tokensFrom 8 f (g :: bs) = tokensFrom 0 g bs := by
  rw [tokensFrom.eq_def]
  exact if_neg (Nat.lt_irrefl 8)

/-- What `tokensFrom` finds is laid out at the head of the stream. -/
theorem tokensFrom_laid (n : ℕ) : ∀ {k : ℕ} {f : UInt8} {bs : Bytes}, bs.length ≤ n → k ≤ 8 →
    ∃ used rest, bs = used ++ rest ∧ Slots k f (tokensFrom k f bs) used := by
  induction n with
  | zero =>
      intro k f bs hlen _
      obtain rfl := List.length_eq_zero_iff.mp (Nat.le_zero.mp hlen)
      exact ⟨[], [], rfl, Slots.stop k f⟩
  | succ n ih =>
      -- a token in the next slot, which may be the first behind a flag byte
      have hslot : ∀ {k : ℕ} {f : UInt8} {bs : Bytes}, bs.length ≤ n + 1 → k < 8 →
          ∃ used rest, bs = used ++ rest ∧ Slots k f (tokensFrom k f bs) used := by
        intro k f bs hlen hk
        rw [tokensFrom_slot hk]
        rcases hnext : nextToken (f.toNat.testBit k) bs with _ | ⟨t, bs'⟩
        · exact ⟨[], bs, rfl, Slots.stop k f⟩
        · obtain ⟨hbit, rfl⟩ := nextToken_bytes hnext
          have hpos : 1 ≤ t.bytes.length := by cases t <;> exact Nat.succ_le_succ (Nat.zero_le _)
          rw [List.length_append] at hlen
          obtain ⟨used, rest, rfl, hslots⟩ := @ih (k + 1) f bs' (by omega) hk
          exact ⟨t.bytes ++ used, rest, (List.append_assoc ..).symm, Slots.fill hk hbit.symm hslots⟩
      intro k f bs hlen hk
      rcases Nat.lt_or_eq_of_le hk with hlt | rfl
      · exact hslot hlen hlt
      · cases bs with
        | nil => exact ⟨[], [], rfl, Slots.stop 8 f⟩
        | cons g bs =>
            rw [tokensFrom_group]
            obtain ⟨used, rest, rfl, hslots⟩ :=
              @hslot 0 g bs (by rw [List.length_cons] at hlen; omega) (by decide)
            generalize tokensFrom 0 g (used ++ rest) = ts at hslots ⊢
            cases hslots with
            | stop => exact ⟨[], g :: rest, rfl, Slots.stop 8 f⟩
            | fill _ hbit h => exact ⟨g :: _, rest, rfl, Slots.group hbit h⟩

theorem tokens_laid (bs : Bytes) : ∃ used rest, bs = used ++ rest ∧ Laid (tokens bs) used :=
  tokensFrom_laid bs.length (Nat.le_refl _) (Nat.le_refl 8)

/-- No layout at the head of the stream goes further. -/
theorem tokensFrom_longest {k : ℕ} {f : UInt8} {ts : List Token} {used : Bytes}
    (h : Slots k f ts used) (rest : Bytes) : ts <+: tokensFrom k f (used ++ rest) := by
  have hslot : ∀ {k : ℕ} {f : UInt8} {t : Token} {ts : List Token} {bs : Bytes}, k < 8 →
      f.toNat.testBit k = t.isLiteral → ts <+: tokensFrom (k + 1) f (bs ++ rest) →
      t :: ts <+: tokensFrom k f (t.bytes ++ bs ++ rest) := by
    intro k f t ts bs hk hbit hts
    rw [tokensFrom_slot hk, hbit, List.append_assoc, nextToken_append]
    exact List.cons_prefix_cons.mpr ⟨rfl, hts⟩
  induction h with
  | stop k f => exact List.nil_prefix
  | fill hk hbit _ ih => exact hslot hk hbit ih
  | group hbit _ ih =>
      rw [List.cons_append, tokensFrom_group]
      exact hslot (by decide) hbit ih

theorem tokens_longest {ts : List Token} {used : Bytes} (h : Laid ts used) (rest : Bytes) :
    ts <+: tokens (used ++ rest) :=
  tokensFrom_longest h rest

/-! ## What an iteration can raise -/

section Indexed

variable {α β : Type}

/-- Nothing but an `IndexError` is raised, and `Q` holds of what is returned. -/
def Indexed (Q : α → Prop) : Except PyError α → Prop
  | .ok a => Q a
  | .error e => e = .IndexError

theorem Indexed.bind {P : α → Prop} {Q : β → Prop} {x : Except PyError α}
    {f : α → Except PyError β} (hx : Indexed P x) (hf : ∀ a, P a → Indexed Q (f a)) :
    Indexed Q (x >>= f) := by
  cases x with
  | ok a => exact hf a hx
  | error e => exact hx

theorem setItem_indexed (b : Bytes) (i : ℕ) (c : UInt8) :
    Indexed (fun b' => i < b.length ∧ b' = b.set i c) (setItem b i c) := by
  unfold setItem
  split
  · rename_i h
    exact ⟨h, rfl⟩
  · rfl

theorem item_indexed (b : Bytes) (i : ℕ) : Indexed (fun _ => i < b.length) (item b i) := by
  unfold item
  split
  · rename_i c h
    exact (List.getElem?_eq_some_iff.mp h).1
  · rfl

/-- `fetch` leaves the loop at `srclen`, and moves on by a byte of the source otherwise. -/
theorem fetch_indexed (source : Source) (s : State) :
    Indexed (fun r => match r with
      | none => source.srclen ≤ s.srcidx
      | some (_, s') => s.srcidx < source.src.length ∧ s' = { s with srcidx := s.srcidx + 1 })
      (fetch source s) := by
  unfold fetch
  split
  · rename_i h
    exact h
  · exact (item_indexed source.src s.srcidx).bind fun c hc => ⟨hc, rfl⟩

/-- What the parts of an iteration keep. `Stop` is what is known when the loop is left. -/
structure Keeps (source : Source) (P : State → Prop) (Stop : Prop) : Prop where
  flags : ∀ s flags, P s → P { s with flags := flags }
  fetch : ∀ s, P s → Indexed (fun r => match r with | none => Stop | some (_, s') => P s')
    (fetch source s)
  emit : ∀ c s, P s → Indexed P (emit c s)

variable {source : Source} {P : State → Prop} {Stop : Prop}

theorem copyLoop_indexed (h : Keeps source P Stop) (i n : ℕ) :
    ∀ k s, P s → Indexed P (copyLoop i n k s) := by
  induction n with
  | zero => exact fun _ _ hs => hs
  | succ n ih => exact fun k s hs => (h.emit _ s hs).bind fun s' hs' => ih (k + 1) s' hs'

/-- What holds behind a part of an iteration, by how it ends. -/
def Found (P : State → Prop) (Stop : Prop) : Option State → Prop
  | none => Stop
  | some s => P s

theorem refill_indexed (h : Keeps source P Stop) {s : State} (hs : P s) :
    Indexed (Found P Stop) (refill source s) := by
  have hshifted := h.flags s (s.flags >>> 1) hs
  refine iteInduction (fun _ => ?_) fun _ => hshifted
  refine (h.fetch _ hshifted).bind fun r hr => ?_
  cases r with
  | none => exact hr
  | some x => exact h.flags _ _ hr

theorem literal_indexed (h : Keeps source P Stop) {s : State} (hs : P s) :
    Indexed (Found P Stop) (literal source s) := by
  refine (h.fetch s hs).bind fun r hr => ?_
  cases r with
  | none => exact hr
  | some x => exact (h.emit _ _ hr).bind fun s' hs' => hs'

theorem reference_indexed (h : Keeps source P Stop) {s : State} (hs : P s) :
    Indexed (Found P Stop) (reference source s) := by
  refine (h.fetch s hs).bind fun r hr => ?_
  cases r with
  | none => exact hr
  | some x =>
      refine (h.fetch _ hr).bind fun r hr => ?_
      cases r with
      | none => exact hr
      | some y => exact (copyLoop_indexed h _ _ _ _ hr).bind fun s' hs' => hs'

/-- **The invariant rule for the loop body.** -/
theorem iteration_indexed (h : Keeps source P Stop) {s : State} (hs : P s) :
    Indexed (fun r => match r with | .stop _ => Stop | .next s' => P s') (iteration source s) := by
  refine (refill_indexed h hs).bind fun r hr => ?_
  cases r with
  | none => exact hr
  | some s₁ =>
      have htoken : Indexed (Found P Stop) (token source s₁) :=
        iteInduction (fun _ => literal_indexed h hr) fun _ => reference_indexed h hr
      refine htoken.bind fun r hr => ?_
      cases r with
      | none => exact hr
      | some s₂ => exact hr

/-- The loop raises nothing else either, and returns only where it may be left. -/
theorem whileTrue_indexed (h : Keeps source P Stop) {fuel : ℕ} : ∀ {s : State}
    {result : Except PyError Bytes}, P s → whileTrue (iteration source) fuel s = some result →
      Indexed (fun _ => Stop) result := by
  induction fuel with
  | zero => exact fun _ hrun => nomatch hrun
  | succ fuel ih =>
      intro s result hs hrun
      have hbody := iteration_indexed h hs
      rw [whileTrue] at hrun
      rcases hiter : iteration source s with e | s' | b
      · rw [hiter] at hrun hbody
        obtain rfl := Option.some.inj hrun
        exact hbody
      · rw [hiter] at hrun hbody
        exact ih hbody hrun
      · rw [hiter] at hrun hbody
        obtain rfl := Option.some.inj hrun
        exact hbody

theorem Indexed.mono {Q R : α → Prop} {x : Except PyError α} (h : Indexed Q x)
    (hQR : ∀ a, Q a → R a) : Indexed R x := by
  cases x with
  | ok a => exact hQR a h
  | error e => exact h

theorem emit_indexed (c : UInt8) (s : State) :
    Indexed (fun s' => s' = { s with
      dst := s.dst.set s.dstidx c
      dstidx := s.dstidx + 1
      text_buf := Function.update s.text_buf s.r c
      r := (s.r + 1) &&& (N - 1) }) (emit c s) := by
  refine (setItem_indexed s.dst s.dstidx c).bind fun dst hdst => ?_
  obtain ⟨-, rfl⟩ := hdst
  rfl

/-- Bytes that no token has reached are spaces. -/
def Blank (D : ℕ) (s : State) : Prop := ∀ i, s.dstidx ≤ i → i < D → s.dst[i]? = some 0x20

theorem keeps_blank (source : Source) (D : ℕ) : Keeps source (Blank D) True where
  flags _ _ hs := hs
  fetch s hs := (fetch_indexed source s).mono fun r hr => by
    cases r with
    | none => trivial
    | some x =>
        obtain ⟨-, hx⟩ := hr
        show Blank D x.2
        rw [hx]
        exact hs
  emit c s hs := (emit_indexed c s).mono fun s' hs' i hi hD => by
    subst hs'
    have hlt : s.dstidx + 1 ≤ i := hi
    rw [List.getElem?_set_ne (by omega)]
    exact hs i (by omega) hD

/-- Where the source ends before `srclen`, the loop cannot be left. -/
theorem keeps_short {source : Source} (h : source.src.length < source.srclen) :
    Keeps source (fun s => s.srcidx ≤ source.src.length) False where
  flags _ _ hs := hs
  fetch s hs := (fetch_indexed source s).mono fun r hr => by
    cases r with
    | none =>
        have hend : source.srclen ≤ s.srcidx := hr
        omega
    | some x =>
        obtain ⟨hlt, hx⟩ := hr
        show x.2.srcidx ≤ source.src.length
        rw [hx]
        exact hlt
  emit c s hs := (emit_indexed c s).mono fun s' hs' => by
    rw [hs']
    exact hs

end Indexed

/-! ## Every stream -/

section Run

variable {source : Source} {s s₁ : State} {hist : List UInt8} {D : ℕ}

/-- The end of a run whose tokens have made the history `hist`: the output and as many
spaces as are missing, if the output is not too long. -/
def outcome (D : ℕ) (hist : List UInt8) : Except PyError Bytes :=
  if hist.length ≤ D then .ok (hist.reverse ++ List.replicate (D - hist.length) 0x20)
  else .error .IndexError

/-- All of `dst`: the output, and spaces. -/
theorem Ring.outcome (hring : Ring s hist D) (hblank : Blank D s) (hD : hist.length ≤ D) :
    outcome D hist = .ok s.dst := by
  have hspaces : s.dst.drop hist.length = List.replicate (D - hist.length) 0x20 := by
    refine List.ext_getElem? fun i => ?_
    rw [List.getElem?_drop, List.getElem?_replicate]
    split
    · rename_i hi
      exact hblank _ (by rw [hring.dstidx]; omega) (by omega)
    · rename_i hi
      exact List.getElem?_eq_none (by rw [hring.size]; omega)
  rw [Lzss.outcome, if_pos hD, ← hspaces, ← hring.dst, List.take_append_drop]

theorem emit_full (hring : Ring s hist D) (hfull : D ≤ hist.length) (c : UInt8) :
    emit c s = .error .IndexError := by
  have hset : setItem s.dst s.dstidx c = .error .IndexError :=
    if_neg (by rw [hring.size, hring.dstidx]; omega)
  rw [emit, hset]
  rfl

/-- A copy that goes on behind the end of `dst` raises there. -/
theorem copyLoop_overrun (i n : ℕ) : ∀ (k : ℕ) (s : State) (hist : List UInt8), Ring s hist D →
    hist.length ≤ D → D < hist.length + n → copyLoop i n k s = .error .IndexError := by
  induction n with
  | zero =>
      intro k s hist _ hle hlt
      omega
  | succ n ih =>
      intro k s hist hring hle hlt
      rw [copyLoop]
      rcases Nat.lt_or_eq_of_le hle with hroom | hfull
      · obtain ⟨s₁, hemit, hring₁, -, -⟩ :=
          emit_ring hring hroom (s.text_buf ((i + k) &&& (N - 1)))
        rw [hemit]
        exact ih (k + 1) s₁ _ hring₁ hroom (by rw [List.length_cons]; omega)
      · rw [emit_full hring hfull.ge]
        rfl

theorem Token.write_overrun (t : Token) (hring : Ring s hist D) (hle : hist.length ≤ D)
    (hlt : D < hist.length + t.size) : t.write s = .error .IndexError := by
  cases t with
  | lit b => exact emit_full hring (Nat.lt_succ_iff.mp hlt) b
  | ref p L hp hL => exact copyLoop_overrun p L 0 s hist hring hle hlt

/-- Without a complete token the loop is left. -/
theorem token_incomplete {f : UInt8} {k : ℕ} {bs : Bytes} (hflags : s.flags = register f.toNat k)
    (hk : k < 8) (hnext : nextToken (f.toNat.testBit k) bs = none)
    (hsource : Remaining source s.srcidx bs) : token source s = .ok none := by
  cases bs with
  | nil => exact token_stop hsource
  | cons i bs =>
      have hbranch := register_flag (f := f.toNat) hk
      rw [← hflags] at hbranch
      cases hbit : f.toNat.testBit k with
      | true =>
          rw [hbit] at hnext
          cases hnext
      | false =>
          rw [hbit] at hnext hbranch
          cases bs with
          | cons j bs => cases hnext
          | nil =>
              -- half of a reference
              obtain ⟨hfetch, hrest⟩ := fetch_cons hsource
              rw [token, if_neg (fun h => by cases hbranch.mp h), reference, hfetch]
              show (fetch source _).bind _ = _
              rw [fetch_nil (s := { s with srcidx := s.srcidx + 1 }) hrest]
              rfl

/-- An iteration with a token that there is no room for. -/
theorem iteration_overrun {k : ℕ} {f : UInt8} {t : Token} {bs : Bytes}
    (hrefill : refill source s = .ok (some s₁)) (hring : Ring s₁ hist D) (hD : hist.length ≤ D)
    (hflags : s₁.flags = register f.toNat k) (hk : k < 8) (hbit : f.toNat.testBit k = t.isLiteral)
    (hsource : Remaining source s₁.srcidx (t.bytes ++ bs)) (hlong : D < hist.length + t.size) :
    iteration source s = .error .IndexError := by
  obtain ⟨htoken, -⟩ := token_eq hflags hk hbit hsource
  rw [iteration_eq hrefill, htoken, t.write_overrun (hring.move _ _) hD hlong]
  rfl

/-- **The loop on any stream.** From slot `k` on, the complete tokens of what is left
are decoded, and the loop is left behind them. -/
theorem whileTrue_tokensFrom (fuel : ℕ) : ∀ {k : ℕ} {f : UInt8} {bs : Bytes} {s : State}
    {hist : List UInt8}, bs.length < fuel → k ≤ 8 → Ring s hist D → Blank D s → hist.length ≤ D →
      SlotReady s.flags f.toNat k → Remaining source s.srcidx bs →
      whileTrue (iteration source) fuel s
        = some (outcome D ((tokensFrom k f bs).foldl Token.apply hist)) := by
  induction fuel with
  | zero => exact fun hlen => absurd hlen (Nat.not_lt_zero _)
  | succ fuel ih =>
      -- the iteration behind `refill`, in whichever slot that leaves it
      have hslot : ∀ {k : ℕ} {f : UInt8} {bs : Bytes} {s s₁ : State} {hist : List UInt8},
          bs.length ≤ fuel → k < 8 → Ring s hist D → Ring s₁ hist D → Blank D s →
          hist.length ≤ D → refill source s = .ok (some s₁) → s₁.flags = register f.toNat k →
          Remaining source s₁.srcidx bs → whileTrue (iteration source) (fuel + 1) s
            = some (outcome D ((tokensFrom k f bs).foldl Token.apply hist)) := by
        intro k f bs s s₁ hist hlen hk hring hring₁ hblank hD hrefill hflags hsource
        rw [tokensFrom_slot hk]
        rcases hnext : nextToken (f.toNat.testBit k) bs with _ | ⟨t, rest⟩
        · have hiter : iteration source s = .ok (.stop s.dst) := by
            rw [iteration_eq hrefill, token_incomplete hflags hk hnext hsource]
            rfl
          rw [whileTrue_stop hiter]
          exact congrArg some (hring.outcome hblank hD).symm
        · obtain ⟨hbit, rfl⟩ := nextToken_bytes hnext
          by_cases hroom : hist.length + t.size ≤ D
          · obtain ⟨s', hiter, hring', hrest, hready⟩ :=
              iteration_token hrefill hring₁ hflags hk hbit.symm hsource hroom
            have hblank' := iteration_indexed (keeps_blank source D) hblank
            rw [hiter] at hblank'
            have hpos : 1 ≤ t.bytes.length := by cases t <;> exact Nat.succ_le_succ (Nat.zero_le _)
            rw [List.length_append] at hlen
            rw [whileTrue_next hiter]
            exact ih (by omega) hk hring' hblank' (by rw [length_apply]; exact hroom) hready hrest
          · have hiter := iteration_overrun hrefill hring₁ hD hflags hk hbit.symm hsource
              (Nat.not_le.mp hroom)
            have hlong := length_foldl_apply (tokensFrom (k + 1) f rest) (t.apply hist)
            rw [length_apply] at hlong
            rw [whileTrue, hiter, List.foldl_cons, outcome, if_neg (by omega)]
      intro k f bs s hist hlen hk hring hblank hD hready hsource
      rcases Nat.lt_or_eq_of_le hk with hlt | rfl
      · exact hslot (Nat.lt_succ_iff.mp hlen) hlt hring (hring.move _ _) hblank hD
          (refill_keep hready hlt) rfl hsource
      · cases bs with
        | nil =>
            rw [whileTrue_stop (iteration_stop hk hready hsource)]
            exact congrArg some (hring.outcome hblank hD).symm
        | cons g bs =>
            rw [tokensFrom_group]
            exact hslot (Nat.lt_succ_iff.mp (Nat.lt_of_succ_lt hlen)) (by decide) hring
              (hring.move _ _) hblank hD (refill_group hready hsource) rfl (fetch_cons hsource).2

/-- Where the file ends before `srclen`, the loop raises. -/
theorem whileTrue_short (hshort : source.src.length < source.srclen) {fuel : ℕ}
    {result : Except PyError Bytes} (hs : s.srcidx ≤ source.src.length)
    (hrun : whileTrue (iteration source) fuel s = some result) : result = .error .IndexError := by
  have hindexed := whileTrue_indexed (keeps_short hshort) hs hrun
  cases result with
  | ok bytes => exact hindexed.elim
  | error e => exact congrArg Except.error hindexed

end Run

/-! ## The whole file -/

/-- The header of a file: the magic and the two lengths. -/
structure Header (data : Bytes) (decompsize srclen : ℕ) : Prop where
  magic : slice data 0 8 = magic
  decompsize : unpackBE (slice data 12 16) = .ok decompsize
  srclen : unpackBE (slice data 16 20) = .ok srclen

/-- The first `srclen` bytes behind the header. -/
def payload (data : Bytes) (srclen : ℕ) : Bytes := (data.drop 0x180).take srclen

/-- Four bytes are a number. -/
theorem exists_unpackBE {b : Bytes} (h : b.length = 4) : ∃ n, unpackBE b = .ok n := by
  match b, h with
  | [b₀, b₁, b₂, b₃], _ => exact ⟨_, rfl⟩

/-- Twenty bytes with the magic are enough of a header. -/
theorem exists_header {data : Bytes} (hmagic : slice data 0 8 = magic) (hlen : 20 ≤ data.length) :
    ∃ decompsize srclen, Header data decompsize srclen := by
  have hword : ∀ m n, m + 4 = n → n ≤ 20 → (slice data m n).length = 4 := by
    intro m n hn hle
    rw [slice, List.length_take, List.length_drop]
    omega
  obtain ⟨decompsize, hdecompsize⟩ := exists_unpackBE (hword 12 16 rfl (by decide))
  obtain ⟨srclen, hsrclen⟩ := exists_unpackBE (hword 16 20 rfl (by decide))
  exact ⟨decompsize, srclen, hmagic, hdecompsize, hsrclen⟩

section File

variable {data : Bytes} {decompsize srclen fuel : ℕ}

theorem Header.decompress_lzss (h : Header data decompsize srclen) :
    decompress_lzss fuel data
      = (whileTrue (iteration ⟨data.drop 0x180, srclen⟩) fuel (State.start decompsize)).map
          fun result => result.map .returned := by
  rw [Lzss.decompress_lzss, if_neg (fun hne => hne h.magic), h.decompsize, h.srclen]

/-- A file that has its `srclen` bytes: the expansion of their complete tokens, if it fits. -/
theorem Header.decompress_lzss_whole (h : Header data decompsize srclen)
    (hwhole : srclen ≤ (data.drop 0x180).length) (hfuel : srclen < fuel) :
    Lzss.decompress_lzss fuel data = some ((outcome decompsize
      ((tokens (payload data srclen)).foldl Token.apply [])).map .returned) := by
  have hlen : (payload data srclen).length = srclen := by
    rw [payload, List.length_take]
    omega
  have hsource : Remaining ⟨data.drop 0x180, srclen⟩ (State.start decompsize).srcidx
      (payload data srclen) :=
    ⟨⟨_, (List.take_append_drop srclen (data.drop 0x180)).symm⟩, by rw [hlen]; exact Nat.zero_add _⟩
  have hblank : Blank decompsize (State.start decompsize) := fun i _ hi => by
    show (List.replicate decompsize (0x20 : UInt8))[i]? = some 0x20
    rw [List.getElem?_replicate, if_pos hi]
  have hready : SlotReady (State.start decompsize).flags (0 : UInt8).toNat 8 :=
    Or.inr ⟨rfl, start_flags _⟩
  rw [h.decompress_lzss, whileTrue_tokensFrom fuel (by rw [hlen]; exact hfuel) (Nat.le_refl 8)
    (start_ring decompsize) hblank (Nat.zero_le _) hready hsource]
  rfl

/-- A file that ends before them. -/
theorem Header.decompress_lzss_short (h : Header data decompsize srclen)
    (hshort : (data.drop 0x180).length < srclen) (hfuel : srclen < fuel) :
    Lzss.decompress_lzss fuel data = some (.error .IndexError) := by
  have hends : ∀ n, unpackBE (slice data 16 20) = .ok n → n < fuel := by
    intro n hn
    obtain rfl : srclen = n := Except.ok.inj (h.srclen.symm.trans hn)
    exact hfuel
  obtain ⟨result, hresult⟩ := decompress_lzss_total data hends
  rw [hresult]
  rw [h.decompress_lzss] at hresult
  obtain ⟨result', hrun, rfl⟩ := Option.map_eq_some_iff.mp hresult
  rw [whileTrue_short hshort (Nat.zero_le _) hrun]
  rfl

/-- Only a file with a header makes the function return. -/
theorem exists_header_of_returned {bytes : Bytes}
    (h : Lzss.decompress_lzss fuel data = some (.ok (.returned bytes))) :
    ∃ decompsize srclen, Header data decompsize srclen := by
  unfold Lzss.decompress_lzss at h
  split at h
  · cases h
  · rename_i hmagic
    split at h
    · cases h
    · cases h
    · rename_i decompsize srclen hdecompsize hsrclen
      exact ⟨decompsize, srclen, of_not_not hmagic, hdecompsize, hsrclen⟩

/-- A result does not depend on the bound on the iterations. -/
theorem Header.decompress_lzss_mono (h : Header data decompsize srclen) {fuel' : ℕ}
    (hle : fuel ≤ fuel') {result : Except PyError Outcome}
    (hrun : Lzss.decompress_lzss fuel data = some result) :
    Lzss.decompress_lzss fuel' data = some result := by
  rw [h.decompress_lzss] at hrun ⊢
  obtain ⟨result', hresult', rfl⟩ := Option.map_eq_some_iff.mp hrun
  rw [whileTrue_mono hle hresult']
  rfl

end File

/-- **What a returned buffer is**: the file has its `srclen` bytes, the expansion of their
complete tokens is not too long for the buffer, and what it leaves of the buffer is the
spaces that were there at the beginning. -/
theorem returned_padded {fuel : ℕ} {data bytes : Bytes}
    (h : decompress_lzss fuel data = some (.ok (.returned bytes))) :
    ∃ decompsize srclen, Header data decompsize srclen ∧ srclen ≤ (data.drop 0x180).length
      ∧ (expand (tokens (payload data srclen))).length ≤ decompsize
      ∧ bytes = expand (tokens (payload data srclen))
        ++ List.replicate (decompsize - (expand (tokens (payload data srclen))).length) 0x20 := by
  obtain ⟨decompsize, srclen, hheader⟩ := exists_header_of_returned h
  have hrun := hheader.decompress_lzss_mono (Nat.le_max_left fuel (srclen + 1)) h
  have hfuel : srclen < max fuel (srclen + 1) := Nat.le_max_right fuel (srclen + 1)
  refine ⟨decompsize, srclen, hheader, ?_⟩
  rcases Nat.lt_or_ge (data.drop 0x180).length srclen with hshort | hwhole
  · rw [hheader.decompress_lzss_short hshort hfuel] at hrun
    cases hrun
  · rw [hheader.decompress_lzss_whole hwhole hfuel, outcome] at hrun
    rw [expand, List.length_reverse]
    split at hrun
    · rename_i hfits
      cases hrun
      exact ⟨hwhole, hfits, rfl⟩
    · cases hrun

/-- The file of `sixBytes` without the last byte of its stream, which is half of the
reference. -/
def cutFile : Bytes :=
  magic ++ [0, 0, 0, 0, 0, 0, 0, 6, 0, 0, 0, 3] ++ List.replicate 364 0 ++ [1, 0x61, 0xee]

theorem returned_padded_cut : ∃ decompsize srclen, Header cutFile decompsize srclen
    ∧ srclen ≤ (cutFile.drop 0x180).length
    ∧ (expand (tokens (payload cutFile srclen))).length ≤ decompsize
    ∧ [0x61, 0x20, 0x20, 0x20, 0x20, 0x20] = expand (tokens (payload cutFile srclen))
      ++ List.replicate (decompsize - (expand (tokens (payload cutFile srclen))).length) 0x20 :=
  @returned_padded 4 cutFile _ rfl

/-- It comes back as six bytes, and five of them were never written. -/
theorem cut_returned :
    decompress_lzss 4 cutFile = some (.ok (.returned [0x61, 0x20, 0x20, 0x20, 0x20, 0x20]))
      ∧ Header cutFile 6 3 ∧ (expand (tokens (payload cutFile 3))).length = 1 :=
  ⟨rfl, ⟨rfl, rfl, rfl⟩, rfl⟩

end XnuQemuTools.Lzss

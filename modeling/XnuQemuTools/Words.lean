/-
Little-endian numbers in a byte memory.

`load m a n` is the number in the `n` bytes from `a`, and `store m a n v` puts the low
`n` bytes of `v` there. A record whose fields are stored like this is described by
where its fields are; what an update of one field does to another is then a question
about two ranges of addresses (`load_store_of_disjoint`), and storing what is there
changes nothing (`store_load`).
-/
import XnuQemuTools.Memory

set_option autoImplicit false

namespace XnuQemuTools.Words

open Memory

/-- The number in the `n` bytes from `a`. -/
def load (m : Mem) : ℕ → ℕ → ℕ
  | _, 0 => 0
  | a, n + 1 => (m a).toNat + 256 * load m (a + 1) n

/-- `m` with the low `n` bytes of `v` from `a` on. -/
def store (m : Mem) (a n v : ℕ) : Mem :=
  fun b => if a ≤ b ∧ b < a + n then UInt8.ofNat (v / 256 ^ (b - a)) else m b

variable {m m' : Mem}

theorem store_inside {a n v b : ℕ} (ha : a ≤ b) (hn : b < a + n) :
    store m a n v b = UInt8.ofNat (v / 256 ^ (b - a)) := if_pos ⟨ha, hn⟩

theorem store_outside {a n v b : ℕ} (h : b < a ∨ a + n ≤ b) : store m a n v b = m b :=
  if_neg (by omega)

/-- A load reads its own bytes only. -/
theorem load_congr (n : ℕ) : ∀ a, (∀ b, a ≤ b → b < a + n → m b = m' b) →
    load m a n = load m' a n := by
  induction n with
  | zero => exact fun _ _ => rfl
  | succ n ih =>
      intro a h
      have hhead : m a = m' a := h a (Nat.le_refl a) (by omega)
      have htail : load m (a + 1) n = load m' (a + 1) n :=
        ih (a + 1) fun b hb hn => h b (by omega) (by omega)
      rw [load, load, hhead, htail]

theorem load_store_of_disjoint {a n b k v : ℕ} (h : a + n ≤ b ∨ b + k ≤ a) :
    load (store m b k v) a n = load m a n :=
  load_congr n a fun _ _ _ => store_outside (by omega)

/-- What was stored is read back. -/
theorem load_store_self (n : ℕ) : ∀ (a v : ℕ), load (store m a n v) a n = v % 256 ^ n := by
  induction n with
  | zero =>
      intro a v
      rw [pow_zero, Nat.mod_one]
      rfl
  | succ n ih =>
      intro a v
      have hhead : (store m a (n + 1) v a).toNat = v % 256 := by
        rw [store_inside (Nat.le_refl a) (by omega), Nat.sub_self, pow_zero, Nat.div_one]
        exact UInt8.toNat_ofNat'
      -- behind the first byte it is a store of what is above that byte
      have htail : load (store m a (n + 1) v) (a + 1) n
          = load (store m (a + 1) n (v / 256)) (a + 1) n := by
        refine load_congr n (a + 1) fun b hb hn => ?_
        have hdigit : b - a = b - (a + 1) + 1 := by omega
        rw [store_inside (by omega) (by omega), store_inside hb hn, hdigit, pow_succ, Nat.mul_comm,
          ← Nat.div_div_eq_div_mul]
      rw [load, hhead, htail, ih, pow_succ, Nat.mul_comm (256 ^ n), Nat.mod_mul]

theorem load_zero (n : ℕ) : ∀ a, (∀ b, a ≤ b → b < a + n → m b = 0) → load m a n = 0 := by
  induction n with
  | zero => exact fun _ _ => rfl
  | succ n ih =>
      intro a h
      rw [load, h a (Nat.le_refl a) (by omega), ih (a + 1) fun b hb hn => h b (by omega) (by omega)]
      rfl

/-- The bytes of a number that was loaded. -/
theorem byte_load (n : ℕ) : ∀ (a k : ℕ), k < n →
    UInt8.ofNat (load m a n / 256 ^ k) = m (a + k) := by
  induction n with
  | zero => exact fun _ _ hk => absurd hk (Nat.not_lt_zero _)
  | succ n ih =>
      intro a k hk
      have hbyte : (m a).toNat < 256 := (m a).toNat_lt
      rw [load]
      cases k with
      | zero =>
          apply UInt8.toNat_inj.mp
          rw [pow_zero, Nat.div_one, UInt8.toNat_ofNat', Nat.add_mul_mod_self_left,
            Nat.mod_eq_of_lt hbyte, Nat.add_zero]
      | succ k =>
          have hdrop : ((m a).toNat + 256 * load m (a + 1) n) / 256 = load m (a + 1) n := by omega
          rw [pow_succ, Nat.mul_comm (256 ^ k), ← Nat.div_div_eq_div_mul, hdrop,
            ih (a + 1) k (by omega)]
          congr 1
          omega

/-- Two loads agree only if their bytes do. -/
theorem load_eq_iff {n a : ℕ} :
    load m a n = load m' a n ↔ ∀ b, a ≤ b → b < a + n → m b = m' b := by
  constructor
  · intro heq b ha hn
    have hback : a + (b - a) = b := by omega
    rw [← hback, ← byte_load (m := m) n a (b - a) (by omega), heq,
      byte_load n a (b - a) (by omega)]
  · exact load_congr n a

/-- Storing what is there changes nothing. -/
theorem store_load (a n : ℕ) : store m a n (load m a n) = m := by
  funext b
  by_cases hb : a ≤ b ∧ b < a + n
  · have hback : a + (b - a) = b := by omega
    rw [store_inside hb.1 hb.2, byte_load n a (b - a) (by omega), hback]
  · exact store_outside (by omega)

theorem load_lt (a n : ℕ) : load m a n < 256 ^ n := by
  have hself : load m a n = load m a n % 256 ^ n := by
    rw [← load_store_self, store_load]
  rw [hself]
  exact Nat.mod_lt _ (Nat.pow_pos (by decide))

end XnuQemuTools.Words

/-
Regular expressions as a backtracking matcher tries them.

A pattern with groups does not only accept or reject: it says which part of the text each
group took, and where several answers are possible the matcher takes the first it finds.
A reluctant `+?` tries the shortest text first and a greedy `+` the longest, and a later
choice is changed before an earlier one.

`run` is that search, as the list of all ways to match a prefix in the order in which they
are tried. `Parses` says what a way to match is, without an order. Each way has a key: the
lengths its repetitions took, from left to right, negated for the greedy ones. The search
goes through the keys in lexicographic order (`run_sorted`), so the first full match is
the full match with the least key (`fullMatch_iff`), and that is all a proof about a
pattern needs to know of the search.
-/
import Mathlib.Algebra.Order.Ring.Int
import Mathlib.Data.List.Lex
import Mathlib.Tactic.Common

set_option autoImplicit false

namespace XnuQemuTools.Backtracking

variable {α : Type}

/-! ## The search -/

/-- A pattern: a text, a character of a class, `c+?`, `c+`, one after another, a group. -/
inductive Pattern (α : Type) where
  | text (s : List α)
  | one (c : α → Bool)
  | lazy (c : α → Bool)
  | greedy (c : α → Bool)
  | seq (p q : Pattern α)
  | group (n : ℕ) (p : Pattern α)

/-- How many groups a pattern has. -/
def Pattern.groupCount : Pattern α → ℕ
  | .seq p q => p.groupCount + q.groupCount
  | .group _ p => p.groupCount + 1
  | _ => 0

/-- A way to match: the text, what is left, what each group took, and the key. -/
structure Match (α : Type) where
  text : List α
  rest : List α
  groups : List (ℕ × List α)
  key : List ℤ

/-- The prefixes in the class that are not empty, the shortest first. -/
def splits (c : α → Bool) : List α → List (List α × List α)
  | [] => []
  | x :: w => if c x then ([x], w) :: (splits c w).map fun s => (x :: s.1, s.2) else []

/-- The ways to match a prefix of `w`, in the order in which they are tried. -/
def run [DecidableEq α] : Pattern α → List α → List (Match α)
  | .text s, w => if s <+: w then [⟨s, w.drop s.length, [], []⟩] else []
  | .one c, w =>
      match w with
      | [] => []
      | x :: w => if c x then [⟨[x], w, [], []⟩] else []
  | .lazy c, w => (splits c w).map fun s => ⟨s.1, s.2, [], [(s.1.length : ℤ)]⟩
  | .greedy c, w => ((splits c w).map fun s => ⟨s.1, s.2, [], [-(s.1.length : ℤ)]⟩).reverse
  | .seq p q, w =>
      (run p w).flatMap fun m => (run q m.rest).map fun m' =>
        ⟨m.text ++ m'.text, m'.rest, m.groups ++ m'.groups, m.key ++ m'.key⟩
  | .group n p, w => (run p w).map fun m => { m with groups := (n, m.text) :: m.groups }

/-- The first way to match all of `w`. -/
def fullMatch [DecidableEq α] (p : Pattern α) (w : List α) : Option (Match α) :=
  (run p w).find? fun m => m.rest.isEmpty

/-- What group `n` took. -/
def Match.group (m : Match α) (n : ℕ) : Option (List α) := m.groups.lookup n

/-! ## What a match is -/

/-- A text that a pattern matches, with what its groups take and the key. -/
inductive Parses : Pattern α → List α → List (ℕ × List α) → List ℤ → Prop where
  | text (s : List α) : Parses (.text s) s [] []
  | one {c : α → Bool} {x : α} (hx : c x) : Parses (.one c) [x] [] []
  | lazy {c : α → Bool} {t : List α} (hne : t ≠ []) (ht : ∀ x ∈ t, c x) :
      Parses (.lazy c) t [] [(t.length : ℤ)]
  | greedy {c : α → Bool} {t : List α} (hne : t ≠ []) (ht : ∀ x ∈ t, c x) :
      Parses (.greedy c) t [] [-(t.length : ℤ)]
  | seq {p q : Pattern α} {t t' : List α} {g g' : List (ℕ × List α)} {k k' : List ℤ}
      (hp : Parses p t g k) (hq : Parses q t' g' k') :
      Parses (.seq p q) (t ++ t') (g ++ g') (k ++ k')
  | group {n : ℕ} {p : Pattern α} {t : List α} {g : List (ℕ × List α)} {k : List ℤ}
      (hp : Parses p t g k) : Parses (.group n p) t ((n, t) :: g) k

section Inversion

variable {p q : Pattern α} {c : α → Bool} {s t : List α} {n : ℕ} {g : List (ℕ × List α)}
  {k : List ℤ}

theorem parses_text : Parses (.text s) t g k ↔ t = s ∧ g = [] ∧ k = [] := by
  constructor
  · intro h
    cases h
    exact ⟨rfl, rfl, rfl⟩
  · rintro ⟨rfl, rfl, rfl⟩
    exact .text t

theorem parses_one : Parses (.one c) t g k ↔ ∃ x, c x ∧ t = [x] ∧ g = [] ∧ k = [] := by
  constructor
  · intro h
    cases h with
    | one hx => exact ⟨_, hx, rfl, rfl, rfl⟩
  · rintro ⟨x, hx, rfl, rfl, rfl⟩
    exact .one hx

theorem parses_lazy : Parses (.lazy c) t g k
    ↔ (t ≠ [] ∧ ∀ x ∈ t, c x) ∧ g = [] ∧ k = [(t.length : ℤ)] := by
  constructor
  · intro h
    cases h with
    | lazy hne ht => exact ⟨⟨hne, ht⟩, rfl, rfl⟩
  · rintro ⟨⟨hne, ht⟩, rfl, rfl⟩
    exact .lazy hne ht

theorem parses_greedy : Parses (.greedy c) t g k
    ↔ (t ≠ [] ∧ ∀ x ∈ t, c x) ∧ g = [] ∧ k = [-(t.length : ℤ)] := by
  constructor
  · intro h
    cases h with
    | greedy hne ht => exact ⟨⟨hne, ht⟩, rfl, rfl⟩
  · rintro ⟨⟨hne, ht⟩, rfl, rfl⟩
    exact .greedy hne ht

theorem parses_seq : Parses (.seq p q) t g k ↔ ∃ t₁ g₁ k₁ t₂ g₂ k₂, Parses p t₁ g₁ k₁
    ∧ Parses q t₂ g₂ k₂ ∧ t = t₁ ++ t₂ ∧ g = g₁ ++ g₂ ∧ k = k₁ ++ k₂ := by
  constructor
  · intro h
    cases h with
    | seq hp hq => exact ⟨_, _, _, _, _, _, hp, hq, rfl, rfl, rfl⟩
  · rintro ⟨t₁, g₁, k₁, t₂, g₂, k₂, hp, hq, rfl, rfl, rfl⟩
    exact .seq hp hq

theorem parses_group : Parses (.group n p) t g k
    ↔ ∃ g', Parses p t g' k ∧ g = (n, t) :: g' := by
  constructor
  · intro h
    cases h with
    | group hp => exact ⟨_, hp, rfl⟩
  · rintro ⟨g', hp, rfl⟩
    exact .group hp

end Inversion

/-! ## The search finds the matches -/

theorem mem_splits {c : α → Bool} {w : List α} {s : List α × List α} :
    s ∈ splits c w ↔ w = s.1 ++ s.2 ∧ s.1 ≠ [] ∧ ∀ x ∈ s.1, c x := by
  induction w generalizing s with
  | nil =>
      refine iff_of_false List.not_mem_nil ?_
      rintro ⟨hw, hne, -⟩
      exact hne (List.append_eq_nil_iff.mp hw.symm).1
  | cons x w ih =>
      rw [splits]
      obtain ⟨t, r⟩ := s
      split
      · rename_i hx
        simp only [List.mem_cons, Prod.mk.injEq, List.mem_map, Prod.exists]
        constructor
        · rintro (⟨rfl, rfl⟩ | ⟨t, r, hmem, rfl, rfl⟩)
          · exact ⟨rfl, List.cons_ne_nil _ _, by simpa using hx⟩
          · obtain ⟨rfl, -, ht⟩ := ih.mp hmem
            exact ⟨rfl, List.cons_ne_nil _ _, List.forall_mem_cons.mpr ⟨hx, ht⟩⟩
        · rintro ⟨hw, hne, ht⟩
          cases t with
          | nil => exact absurd rfl hne
          | cons y t =>
              obtain ⟨rfl, rfl⟩ := List.cons_eq_cons.mp hw
              rcases eq_or_ne t [] with rfl | hne'
              · exact Or.inl ⟨rfl, rfl⟩
              · exact Or.inr ⟨t, r, ih.mpr ⟨rfl, hne', fun z hz => ht z (List.mem_cons_of_mem _ hz)⟩,
                  rfl, rfl⟩
      · rename_i hx
        refine iff_of_false List.not_mem_nil ?_
        rintro ⟨hw, hne, ht⟩
        cases t with
        | nil => exact hne rfl
        | cons y t =>
            obtain ⟨rfl, -⟩ := List.cons_eq_cons.mp hw
            exact hx (ht x List.mem_cons_self)

theorem mem_run [DecidableEq α] {p : Pattern α} {w : List α} {m : Match α} :
    m ∈ run p w ↔ w = m.text ++ m.rest ∧ Parses p m.text m.groups m.key := by
  induction p generalizing w m with
  | text s =>
      rw [run]
      constructor
      · intro h
        split at h
        · rename_i hs
          obtain ⟨r, rfl⟩ := hs
          cases List.mem_singleton.mp h
          rw [List.drop_left]
          exact ⟨rfl, .text s⟩
        · cases h
      · rintro ⟨rfl, h⟩
        obtain ⟨t, r, g, k⟩ := m
        cases h
        rw [if_pos (List.prefix_append _ _), List.drop_left]
        exact List.mem_singleton_self _
  | one c =>
      cases w with
      | nil =>
          rw [run]
          refine iff_of_false List.not_mem_nil ?_
          rintro ⟨hw, h⟩
          obtain ⟨t, r, g, k⟩ := m
          cases h with
          | one hx => cases hw
      | cons x w =>
          rw [run]
          constructor
          · intro h
            split at h
            · rename_i hx
              cases List.mem_singleton.mp h
              exact ⟨rfl, .one hx⟩
            · cases h
          · rintro ⟨hw, h⟩
            obtain ⟨t, r, g, k⟩ := m
            cases h with
            | one hx =>
                obtain ⟨rfl, rfl⟩ := List.cons_eq_cons.mp hw
                rw [if_pos hx]
                exact List.mem_singleton_self _
  | lazy c =>
      rw [run, List.mem_map]
      constructor
      · rintro ⟨s, hs, rfl⟩
        obtain ⟨hw, hne, ht⟩ := mem_splits.mp hs
        exact ⟨hw, .lazy hne ht⟩
      · rintro ⟨hw, h⟩
        obtain ⟨t, r, g, k⟩ := m
        replace h : Parses (.lazy c) t g k := h
        cases h with
        | lazy hne ht => exact ⟨(t, r), mem_splits.mpr ⟨hw, hne, ht⟩, rfl⟩
  | greedy c =>
      rw [run, List.mem_reverse, List.mem_map]
      constructor
      · rintro ⟨s, hs, rfl⟩
        obtain ⟨hw, hne, ht⟩ := mem_splits.mp hs
        exact ⟨hw, .greedy hne ht⟩
      · rintro ⟨hw, h⟩
        obtain ⟨t, r, g, k⟩ := m
        replace h : Parses (.greedy c) t g k := h
        cases h with
        | greedy hne ht => exact ⟨(t, r), mem_splits.mpr ⟨hw, hne, ht⟩, rfl⟩
  | seq p q ihp ihq =>
      rw [run]
      constructor
      · intro h
        obtain ⟨m₁, h₁, h⟩ := List.mem_flatMap.mp h
        obtain ⟨m₂, h₂, rfl⟩ := List.mem_map.mp h
        obtain ⟨rfl, hp⟩ := ihp.mp h₁
        obtain ⟨hrest, hq⟩ := ihq.mp h₂
        exact ⟨by rw [hrest, List.append_assoc], .seq hp hq⟩
      · rintro ⟨rfl, h⟩
        obtain ⟨t, r, g, k⟩ := m
        cases h with
        | @seq _ _ t t' g g' k k' hp hq =>
            refine List.mem_flatMap.mpr ⟨⟨t, t' ++ r, g, k⟩, ihp.mpr ⟨?_, hp⟩,
              List.mem_map.mpr ⟨⟨t', r, g', k'⟩, ihq.mpr ⟨rfl, hq⟩, rfl⟩⟩
            exact List.append_assoc _ _ _
  | group n p ih =>
      rw [run, List.mem_map]
      constructor
      · rintro ⟨m, hm, rfl⟩
        obtain ⟨hw, h⟩ := ih.mp hm
        exact ⟨hw, .group h⟩
      · rintro ⟨hw, h⟩
        obtain ⟨t, r, g, k⟩ := m
        replace h : Parses (.group n p) t g k := h
        cases h with
        | @group _ _ _ g _ hp => exact ⟨⟨t, r, g, k⟩, ih.mpr ⟨hw, hp⟩, rfl⟩

/-! ## The order of the search -/

theorem splits_sorted (c : α → Bool) (w : List α) :
    (splits c w).Pairwise fun s s' => s.1.length < s'.1.length := by
  induction w with
  | nil => exact List.Pairwise.nil
  | cons x w ih =>
      rw [splits]
      split
      · refine List.pairwise_cons.mpr ⟨fun s hs => ?_, ?_⟩
        · obtain ⟨s', hs', rfl⟩ := List.mem_map.mp hs
          exact Nat.succ_lt_succ (List.length_pos_iff.mpr (mem_splits.mp hs').2.1)
        · exact List.pairwise_map.mpr (ih.imp Nat.succ_lt_succ)
      · exact List.Pairwise.nil

theorem Parses.key_length {p : Pattern α} {t t' : List α} {g g' : List (ℕ × List α)}
    {k k' : List ℤ} (h : Parses p t g k) (h' : Parses p t' g' k') : k.length = k'.length := by
  induction h generalizing t' g' k' with
  | text s => cases h'; rfl
  | one hx => cases h'; rfl
  | lazy hne ht => cases h'; rfl
  | greedy hne ht => cases h'; rfl
  | seq hp hq ihp ihq =>
      cases h' with
      | seq hp' hq' => rw [List.length_append, List.length_append, ihp hp', ihq hq']
  | group hp ih =>
      cases h' with
      | group hp' => exact ih hp'

theorem append_lt_append {k k' l l' : List ℤ} (h : k < k') (hlen : k.length = k'.length) :
    k ++ l < k' ++ l' := by
  induction h with
  | nil => cases hlen
  | rel h => exact List.Lex.rel h
  | cons _ ih => exact List.Lex.cons (ih (Nat.succ.inj hlen))

theorem run_sorted [DecidableEq α] (p : Pattern α) (w : List α) :
    (run p w).Pairwise fun m m' => m.key < m'.key := by
  induction p generalizing w with
  | text s =>
      rw [run]
      split
      · exact List.pairwise_singleton _ _
      · exact List.Pairwise.nil
  | one c =>
      cases w with
      | nil => exact List.Pairwise.nil
      | cons x w =>
          rw [run]
          split
          · exact List.pairwise_singleton _ _
          · exact List.Pairwise.nil
  | lazy c =>
      rw [run, List.pairwise_map]
      exact (splits_sorted c w).imp fun h => List.Lex.rel (Int.ofNat_lt.mpr h)
  | greedy c =>
      rw [run, List.pairwise_reverse, List.pairwise_map]
      exact (splits_sorted c w).imp fun h => List.Lex.rel (Int.neg_lt_neg (Int.ofNat_lt.mpr h))
  | seq p q ihp ihq =>
      rw [run, List.pairwise_flatMap]
      constructor
      · -- another second part behind the same first
        intro m _
        rw [List.pairwise_map]
        exact (ihq m.rest).imp fun h => List.append_left_lt h
      · -- another first part, whose key is as long
        refine (ihp w).imp_of_mem fun hm hn hlt x hx y hy => ?_
        obtain ⟨m', -, rfl⟩ := List.mem_map.mp hx
        obtain ⟨n', -, rfl⟩ := List.mem_map.mp hy
        exact append_lt_append hlt ((mem_run.mp hm).2.key_length (mem_run.mp hn).2)
  | group n p ih =>
      rw [run, List.pairwise_map]
      exact ih w

/-- **The first full match is the one with the least key.** -/
theorem fullMatch_iff [DecidableEq α] {p : Pattern α} {w : List α} {m : Match α} :
    fullMatch p w = some m ↔ m.text = w ∧ m.rest = [] ∧ Parses p w m.groups m.key
      ∧ ∀ g k, Parses p w g k → ¬ k < m.key := by
  rw [fullMatch, List.find?_eq_some_iff_append]
  constructor
  · rintro ⟨hrest, before, after, hrun, hbefore⟩
    have hrest' : m.rest = [] := List.isEmpty_iff.mp hrest
    obtain ⟨hw, hm⟩ := mem_run.mp (hrun ▸ List.mem_append_right before List.mem_cons_self)
    rw [hrest', List.append_nil] at hw
    refine ⟨hw.symm, hrest', hw ▸ hm, fun g k hk hlt => ?_⟩
    -- a full match with a smaller key would have been found before
    have hmem : (⟨w, [], g, k⟩ : Match α) ∈ before ++ m :: after :=
      hrun ▸ mem_run.mpr ⟨(List.append_nil w).symm, hk⟩
    have hsorted := hrun ▸ run_sorted p w
    rcases List.mem_append.mp hmem with hmem | hmem
    · exact absurd (hbefore _ hmem) (by simp)
    · rcases List.mem_cons.mp hmem with rfl | hmem
      · exact List.lt_irrefl _ hlt
      · exact List.lt_asymm hlt
          (List.rel_of_pairwise_cons (List.pairwise_append.mp hsorted).2.1 hmem)
  · rintro ⟨rfl, hrest, hm, hleast⟩
    have hmem : m ∈ run p m.text := mem_run.mpr ⟨by rw [hrest, List.append_nil], hm⟩
    obtain ⟨before, after, hrun⟩ := List.append_of_mem hmem
    refine ⟨List.isEmpty_iff.mpr hrest, before, after, hrun, fun m' hm' => ?_⟩
    by_contra hempty
    obtain ⟨hw', hparses⟩ := mem_run.mp (hrun ▸ List.mem_append_left _ hm')
    have hrest' : m'.rest = [] := by simpa using hempty
    rw [hrest', List.append_nil] at hw'
    have hsorted := hrun ▸ run_sorted p m.text
    exact hleast _ _ (hw' ▸ hparses)
      ((List.pairwise_append.mp hsorted).2.2 m' hm' m List.mem_cons_self)

end XnuQemuTools.Backtracking

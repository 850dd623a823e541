/-
`parse_address_spec` of the tunnel (`tcp-tunnel/src/main.c`), which takes its one argument
`[<in|out>:]listen-port:target-ip:target-port` apart, and what `main` does with it.

The parser is a chain of steps, each of which looks at the token in hand, stores what it
makes of it and asks `strtok` for the next one. What it does only depends on the fields of
the string: `parse_fields` says what, and `parse_address_spec_fields` that it does that.
Every step may find no token left, and is then skipped. A string with fewer fields is thus
accepted as well, and leaves some outputs as they were.

`Spec` is the grammar. A string that has it is read as it is meant (`parse_spec`). Of the
others only those are refused that `Refused` describes, which is what `spec_accepted_iff`
comes to.
-/
import XnuQemuTools.CString

set_option autoImplicit false

namespace XnuQemuTools.AddressSpec

open CString

/-! ## The parser -/

def DIR_IN : ℤ := 1

def DIR_OUT : ℤ := 2

/-- `:` -/
def colon : UInt8 := 0x3a

/-- What is stored through the pointers; `none` where nothing is. -/
structure Outputs where
  listen_port : Option UInt32 := none
  target_ip : Option (List UInt8) := none
  target_port : Option UInt32 := none
  deriving DecidableEq

/-- The token in hand, what `strtok` has left, and the outputs so far. -/
structure Cursor where
  token : Option (List UInt8)
  rest : List UInt8
  out : Outputs

/-- The value returned, the outputs, and what is printed on `stderr`. -/
structure Ended where
  retval : ℤ
  out : Outputs
  diagnostic : Option (List UInt8)
  deriving DecidableEq

/-- `token = strtok(address_spec, ":")` -/
def start (address_spec : List UInt8) : Cursor :=
  { token := (strtok colon address_spec).1, rest := (strtok colon address_spec).2, out := {} }

/-- `token = strtok(NULL, ":")` -/
def Cursor.next (c : Cursor) : Cursor :=
  { c with token := (strtok colon c.rest).1, rest := (strtok colon c.rest).2 }

/-- `!strncmp(token, word, strlen(word))` -/
def has_prefix (token : List UInt8) (word : String) : Bool := (ascii word).isPrefixOf token

/-- The first `if`, with the direction it leaves. -/
def parse_direction (c : Cursor) : ℤ × Cursor :=
  match c.token with
  | none => (DIR_IN, c)
  | some token =>
      if has_prefix token "out" then (DIR_OUT, c.next)
      else if has_prefix token "in" then (DIR_IN, c.next)
      else (DIR_IN, c)

def listen_message (token : List UInt8) : List UInt8 :=
  ascii "Couldn't parse the listen port argument (" ++ token ++ ascii ")!\n"

def target_message (token : List UInt8) : List UInt8 :=
  ascii "Couldn't parse the target port argument (" ++ token ++ ascii ")!\n"

def garbage_message (token : List UInt8) : List UInt8 :=
  ascii "Garbage after address spec (" ++ token ++ ascii ")!\n"

/-- The two steps for a port. It is stored before `errno` is looked at. -/
def parse_port (einval : Bool) (store : UInt32 → Outputs → Outputs)
    (message : List UInt8 → List UInt8) (c : Cursor) : Except (List UInt8 × Outputs) Cursor :=
  match c.token with
  | none => .ok c
  | some token =>
      let port := strtoul einval token
      let c := { c with out := store port.1.toUInt32 c.out }
      if port.2 then .error (message token, c.out) else .ok c.next

def parse_listen_port (einval : Bool) : Cursor → Except (List UInt8 × Outputs) Cursor :=
  parse_port einval (fun port out => { out with listen_port := some port }) listen_message

def parse_target_port (einval : Bool) : Cursor → Except (List UInt8 × Outputs) Cursor :=
  parse_port einval (fun port out => { out with target_port := some port }) target_message

def parse_target_ip (target_ip_size : ℕ) (c : Cursor) : Cursor :=
  match c.token with
  | none => c
  | some token =>
      { c with out := { c.out with target_ip := some (strncpy token target_ip_size) } }.next

/-- The last `if`. -/
def parse_end (c : Cursor) : Except (List UInt8 × Outputs) Cursor :=
  match c.token with
  | none => .ok c
  | some token => .error (garbage_message token, c.out)

/-- The steps after the direction. -/
def parse_steps (einval : Bool) (target_ip_size : ℕ) (c : Cursor) :
    Except (List UInt8 × Outputs) Cursor := do
  let c ← parse_listen_port einval c
  let c ← parse_target_port einval (parse_target_ip target_ip_size c)
  parse_end c

/-- The two ways to return. -/
def ended (direction : ℤ) : Except (List UInt8 × Outputs) Cursor → Ended
  | .error (message, out) => ⟨-1, out, some message⟩
  | .ok c => ⟨direction, c.out, none⟩

def parse_address_spec (einval : Bool) (address_spec : List UInt8) (target_ip_size : ℕ) :
    Ended :=
  let (direction, c) := parse_direction (start address_spec)
  ended direction (parse_steps einval target_ip_size c)

/-! ## As a function of the fields -/

/-- The direction that the first field gives. -/
def fields_direction : List (List UInt8) → ℤ
  | token :: _ => if has_prefix token "out" then DIR_OUT else DIR_IN
  | [] => DIR_IN

/-- The fields after the one that gives a direction. -/
def after_direction : List (List UInt8) → List (List UInt8)
  | token :: ts => if has_prefix token "out" || has_prefix token "in" then ts else token :: ts
  | [] => []

/-- What becomes of the fields after the target port. -/
def fields_end (direction : ℤ) (out : Outputs) : List (List UInt8) → Ended
  | [] => ⟨direction, out, none⟩
  | t :: _ => ⟨-1, out, some (garbage_message t)⟩

/-- What becomes of the fields after the target address. -/
def fields_target_port (einval : Bool) (direction : ℤ) (out : Outputs) :
    List (List UInt8) → Ended
  | [] => ⟨direction, out, none⟩
  | Q :: ts =>
      let out := { out with target_port := some (strtoul einval Q).1.toUInt32 }
      if (strtoul einval Q).2 then ⟨-1, out, some (target_message Q)⟩
      else fields_end direction out ts

/-- What becomes of the fields after the listen port. -/
def fields_target_ip (einval : Bool) (target_ip_size : ℕ) (direction : ℤ) (out : Outputs) :
    List (List UInt8) → Ended
  | [] => ⟨direction, out, none⟩
  | A :: ts =>
      fields_target_port einval direction
        { out with target_ip := some (strncpy A target_ip_size) } ts

/-- What becomes of the fields after the direction. -/
def parse_fields (einval : Bool) (target_ip_size : ℕ) (direction : ℤ) :
    List (List UInt8) → Ended
  | [] => ⟨direction, {}, none⟩
  | P :: ts =>
      let out : Outputs := { listen_port := some (strtoul einval P).1.toUInt32 }
      if (strtoul einval P).2 then ⟨-1, out, some (listen_message P)⟩
      else fields_target_ip einval target_ip_size direction out ts

section Fields

variable {einval : Bool} {c : Cursor} {ts : List (List UInt8)} {out : Outputs} {n : ℕ}

/-- The cursor has the fields `ts` before it, and stored `out`. -/
structure Cursor.At (c : Cursor) (ts : List (List UInt8)) (out : Outputs) : Prop where
  token : c.token = ts.head?
  rest : fields colon c.rest = ts.tail
  out : c.out = out

theorem start_at (s : List UInt8) : (start s).At (fields colon s) {} :=
  ⟨strtok_head s, strtok_tail s, rfl⟩

theorem Cursor.At.next {t : List UInt8} (h : c.At (t :: ts) out) : c.next.At ts out := by
  have hrest : fields colon c.rest = ts := h.rest
  refine ⟨?_, ?_, h.out⟩
  · rw [Cursor.next, strtok_head, hrest]
  · rw [Cursor.next, strtok_tail, hrest]

theorem Cursor.At.store {out' : Outputs} (h : c.At ts out) :
    Cursor.At { c with out := out' } ts out' :=
  ⟨h.token, h.rest, rfl⟩

theorem parse_direction_at (h : c.At ts out) :
    (parse_direction c).1 = fields_direction ts ∧
      (parse_direction c).2.At (after_direction ts) out := by
  cases ts with
  | nil =>
      have htoken : c.token = none := h.token
      rw [parse_direction, htoken]
      exact ⟨rfl, h⟩
  | cons t ts =>
      have htoken : c.token = some t := h.token
      rw [parse_direction, htoken, fields_direction, after_direction]
      cases hout : has_prefix t "out" with
      | true =>
          simp only [hout, Bool.true_or, if_true]
          exact ⟨trivial, h.next⟩
      | false =>
          cases hin : has_prefix t "in" with
          | true =>
              simp only [hout, hin, Bool.or_true, Bool.false_eq_true, if_true, if_false]
              exact ⟨trivial, h.next⟩
          | false =>
              simp only [hout, hin, Bool.or_false, Bool.false_eq_true, if_false]
              exact ⟨trivial, h⟩

section Port

variable {store : UInt32 → Outputs → Outputs} {message : List UInt8 → List UInt8}
  {t : List UInt8}

theorem parse_port_none (h : c.At [] out) : parse_port einval store message c = .ok c := by
  have htoken : c.token = none := h.token
  rw [parse_port, htoken]

theorem parse_port_error (h : c.At (t :: ts) out) (herr : (strtoul einval t).2 = true) :
    parse_port einval store message c
      = .error (message t, store (strtoul einval t).1.toUInt32 out) := by
  have htoken : c.token = some t := h.token
  rw [parse_port, htoken]
  simp only [herr, if_true, h.out]

theorem parse_port_ok (store : UInt32 → Outputs → Outputs)
    (message : List UInt8 → List UInt8) (h : c.At (t :: ts) out)
    (herr : (strtoul einval t).2 = false) :
    ∃ c', parse_port einval store message c = .ok c' ∧
      c'.At ts (store (strtoul einval t).1.toUInt32 out) := by
  have htoken : c.token = some t := h.token
  rw [parse_port, htoken]
  simp only [herr, Bool.false_eq_true, if_false, h.out]
  exact ⟨_, rfl, h.store.next⟩

end Port

theorem parse_target_ip_none (h : c.At [] out) : parse_target_ip n c = c := by
  have htoken : c.token = none := h.token
  rw [parse_target_ip, htoken]

theorem parse_target_ip_some {t : List UInt8} (h : c.At (t :: ts) out) :
    (parse_target_ip n c).At ts { out with target_ip := some (strncpy t n) } := by
  have htoken : c.token = some t := h.token
  rw [parse_target_ip, htoken, ← h.out]
  exact h.store.next

theorem parse_end_none (h : c.At [] out) : parse_end c = .ok c := by
  have htoken : c.token = none := h.token
  rw [parse_end, htoken]

theorem parse_end_some {t : List UInt8} (h : c.At (t :: ts) out) :
    parse_end c = .error (garbage_message t, out) := by
  have htoken : c.token = some t := h.token
  rw [parse_end, htoken, h.out]

/-- A cursor without fields passes the steps after the target address. -/
theorem parse_target_none (h : c.At [] out) :
    (parse_target_port einval c >>= parse_end) = .ok c := by
  rw [parse_target_port, parse_port_none h]
  exact parse_end_none h

variable {d : ℤ}

theorem parse_end_at (h : c.At ts out) : ended d (parse_end c) = fields_end d out ts := by
  cases ts with
  | nil => rw [parse_end_none h, ended, h.out, fields_end]
  | cons t ts => rw [parse_end_some h, ended, fields_end]

theorem parse_target_port_at (h : c.At ts out) :
    ended d (parse_target_port einval c >>= parse_end)
      = fields_target_port einval d out ts := by
  cases ts with
  | nil => rw [parse_target_none h, ended, h.out, fields_target_port]
  | cons Q ts =>
      cases hQ : (strtoul einval Q).2 with
      | true =>
          rw [parse_target_port, parse_port_error h hQ, fields_target_port, if_pos hQ]
          rfl
      | false =>
          obtain ⟨c', hc', h'⟩ := parse_port_ok
            (fun port out => { out with target_port := some port }) target_message h hQ
          rw [parse_target_port, hc', fields_target_port, if_neg (ne_true_of_eq_false hQ)]
          exact parse_end_at h'

theorem parse_target_ip_at (h : c.At ts out) :
    ended d (parse_target_port einval (parse_target_ip n c) >>= parse_end)
      = fields_target_ip einval n d out ts := by
  cases ts with
  | nil => rw [parse_target_ip_none h, parse_target_none h, ended, h.out, fields_target_ip]
  | cons A ts => exact parse_target_port_at (parse_target_ip_some h)

/-- The steps do to the fields what `parse_fields` says. -/
theorem parse_steps_at (h : c.At ts {}) :
    ended d (parse_steps einval n c) = parse_fields einval n d ts := by
  rw [parse_steps, parse_listen_port]
  cases ts with
  | nil =>
      rw [parse_port_none h]
      exact parse_target_ip_at h
  | cons P ts =>
      cases hP : (strtoul einval P).2 with
      | true =>
          rw [parse_port_error h hP, parse_fields, if_pos hP]
          rfl
      | false =>
          obtain ⟨c', hc', h'⟩ := parse_port_ok
            (fun port out => { out with listen_port := some port }) listen_message h hP
          rw [hc', parse_fields, if_neg (ne_true_of_eq_false hP)]
          exact parse_target_ip_at h'

theorem parse_address_spec_fields (s : List UInt8) :
    parse_address_spec einval s n
      = parse_fields einval n (fields_direction (fields colon s))
          (after_direction (fields colon s)) := by
  obtain ⟨hd, hc⟩ := parse_direction_at (start_at s)
  rw [parse_address_spec, ← hd]
  exact parse_steps_at hc

end Fields

/-! ## The grammar -/

/-- The optional prefix, and the direction it stands for. -/
inductive Keyword : List UInt8 → ℤ → Prop
  | absent : Keyword [] DIR_IN
  | inward : Keyword (ascii "in" ++ [colon]) DIR_IN
  | outward : Keyword (ascii "out" ++ [colon]) DIR_OUT

/-- `[in:|out:]P:A:Q`, where `P` and `Q` are the numbers `p` and `q`. The size of the
buffer leaves room for 29 bytes. -/
inductive Spec : List UInt8 → ℤ → ℕ → List UInt8 → ℕ → Prop
  | mk {k P A Q : List UInt8} {d : ℤ} {p q : ℕ} (hk : Keyword k d)
      (hP : Numeral P p) (hp : p ≤ 65535) (hne : A ≠ []) (hA : colon ∉ A)
      (hlen : A.length ≤ 29) (hQ : Numeral Q q) (hq : q ≤ 65535) :
      Spec (k ++ (P ++ colon :: (A ++ colon :: Q))) d p A q

/-- The outputs for the fields of a `Spec`. -/
def assigned (p : ℕ) (A : List UInt8) (q : ℕ) : Outputs where
  listen_port := some (UInt32.ofNat p)
  target_ip := some (A ++ List.replicate (30 - A.length) 0)
  target_port := some (UInt32.ofNat q)

theorem numeral_colon {t : List UInt8} {n : ℕ} (h : Numeral t n) : colon ∉ t := by
  intro hmem
  exact absurd (h.alphanumeric colon hmem) (by decide)

theorem numeral_prefix {t : List UInt8} {n : ℕ} (h : Numeral t n) :
    has_prefix t "out" = false ∧ has_prefix t "in" = false := by
  obtain ⟨c, s, rfl, hc⟩ := h.head_digit
  have hout : ((0x6f : UInt8) == c) = false :=
    beq_false_of_ne (fun e => absurd (e ▸ hc) (by decide))
  have hin : ((0x69 : UInt8) == c) = false :=
    beq_false_of_ne (fun e => absurd (e ▸ hc) (by decide))
  constructor
  · show ((0x6f : UInt8) == c && List.isPrefixOf [0x75, 0x74] s) = false
    rw [hout, Bool.false_and]
  · show ((0x69 : UInt8) == c && List.isPrefixOf [0x6e] s) = false
    rw [hin, Bool.false_and]

/-- The direction and the fields after it, with each prefix. -/
theorem keyword_fields {k s P : List UInt8} {d : ℤ} {n : ℕ} {ts : List (List UInt8)}
    (hk : Keyword k d) (hP : Numeral P n) (hs : fields colon s = P :: ts) :
    fields_direction (fields colon (k ++ s)) = d ∧
      after_direction (fields colon (k ++ s)) = P :: ts := by
  cases hk with
  | absent =>
      obtain ⟨hout, hin⟩ := numeral_prefix hP
      rw [List.nil_append, hs, fields_direction, after_direction, hout, hin]
      exact ⟨rfl, rfl⟩
  | inward =>
      have hfields : fields colon (ascii "in" ++ colon :: s) = ascii "in" :: P :: ts := by
        rw [fields_append (by decide) (by decide), hs]
      rw [List.append_assoc, List.singleton_append, hfields]
      exact ⟨rfl, rfl⟩
  | outward =>
      have hfields : fields colon (ascii "out" ++ colon :: s) = ascii "out" :: P :: ts := by
        rw [fields_append (by decide) (by decide), hs]
      rw [List.append_assoc, List.singleton_append, hfields]
      exact ⟨rfl, rfl⟩

/-- A string of the grammar is read as it is meant. -/
theorem parse_spec {einval : Bool} {s A : List UInt8} {d : ℤ} {p q : ℕ}
    (h : Spec s d p A q) :
    parse_address_spec einval s 30 = ⟨d, assigned p A q, none⟩ := by
  cases h with
  | @mk k P _ Q _ _ _ hk hP hp hne hA hlen hQ hq =>
      have hfields : fields colon (P ++ colon :: (A ++ colon :: Q)) = [P, A, Q] := by
        rw [fields_append hP.ne_nil (numeral_colon hP), fields_append hne hA,
          fields_last hQ.ne_nil (numeral_colon hQ)]
      obtain ⟨hdir, hafter⟩ := keyword_fields hk hP hfields
      have hPv := strtoul_numeral einval hP (by omega)
      have hQv := strtoul_numeral einval hQ (by omega)
      rw [parse_address_spec_fields, hdir, hafter, parse_fields, hPv,
        if_neg Bool.false_ne_true, fields_target_ip, fields_target_port, hQv,
        if_neg Bool.false_ne_true, fields_end, strncpy_of_lt (by omega), assigned,
        UInt64.toUInt32_ofNat', UInt64.toUInt32_ofNat']

/-! ## What is accepted -/

/-- Fields after the direction that are refused: a port on which `strtoul` sets `errno`,
or one field too many. -/
def RefusedFields (einval : Bool) (ts : List (List UInt8)) : Prop :=
  (∃ P, ts[0]? = some P ∧ (strtoul einval P).2 = true) ∨
    (∃ Q, ts[2]? = some Q ∧ (strtoul einval Q).2 = true) ∨ 4 ≤ ts.length

def Refused (einval : Bool) (s : List UInt8) : Prop :=
  RefusedFields einval (after_direction (fields colon s))

/-- `DIR_IN` or `DIR_OUT` is returned. -/
def Ended.Accepts (r : Ended) : Prop := r.retval = DIR_IN ∨ r.retval = DIR_OUT

/-- What the usage text and the name of the outputs promise about a string. -/
def AsDocumented (einval : Bool) (s : List UInt8) : Prop :=
  let r := parse_address_spec einval s 30
  (r.Accepts ↔ ∃ d p A q, Spec s d p A q) ∧
    (r.Accepts → ∃ d p A q, Spec s d p A q ∧ r.retval = d ∧ r.out = assigned p A q)

theorem fields_direction_eq (ts : List (List UInt8)) :
    fields_direction ts = DIR_IN ∨ fields_direction ts = DIR_OUT := by
  cases ts with
  | nil => exact Or.inl rfl
  | cons t ts =>
      rw [fields_direction]
      split
      · exact Or.inr rfl
      · exact Or.inl rfl

/-- The steps return the direction, or -1 on the fields that are refused. The cases are the
numbers of fields that the steps tell apart. -/
theorem parse_fields_retval (einval : Bool) (n : ℕ) (d : ℤ) (ts : List (List UInt8)) :
    (RefusedFields einval ts → (parse_fields einval n d ts).retval = -1) ∧
      (¬ RefusedFields einval ts → (parse_fields einval n d ts).retval = d) := by
  match ts with
  | [] => simp [RefusedFields, parse_fields]
  | [P] =>
      cases hP : (strtoul einval P).2 <;> simp [RefusedFields, parse_fields, fields_target_ip, hP]
  | [P, A] =>
      cases hP : (strtoul einval P).2 <;>
        simp [RefusedFields, parse_fields, fields_target_ip, fields_target_port, hP]
  | [P, A, Q] =>
      cases hP : (strtoul einval P).2 <;> cases hQ : (strtoul einval Q).2 <;>
        simp [RefusedFields, parse_fields, fields_target_ip, fields_target_port, fields_end, hP, hQ]
  | P :: A :: Q :: t :: ts =>
      have hmany : RefusedFields einval (P :: A :: Q :: t :: ts) :=
        Or.inr (Or.inr (Nat.le_add_left 4 ts.length))
      refine ⟨fun _ => ?_, fun h => absurd hmany h⟩
      cases hP : (strtoul einval P).2 <;> cases hQ : (strtoul einval Q).2 <;>
        simp [parse_fields, fields_target_ip, fields_target_port, fields_end, hP, hQ]

/-- A direction is returned for every string that is not refused. -/
theorem accepts_iff (einval : Bool) (n : ℕ) (s : List UInt8) :
    (parse_address_spec einval s n).Accepts ↔ ¬ Refused einval s := by
  obtain ⟨hminus, hdir⟩ := parse_fields_retval einval n (fields_direction (fields colon s))
    (after_direction (fields colon s))
  rw [parse_address_spec_fields]
  constructor
  · rintro hacc href
    rw [Ended.Accepts, hminus href] at hacc
    exact absurd hacc (by decide)
  · intro href
    rw [Ended.Accepts, hdir href]
    exact fields_direction_eq _

theorem Spec.accepts (einval : Bool) {s A : List UInt8} {d : ℤ} {p q : ℕ} (h : Spec s d p A q) :
    (parse_address_spec einval s 30).Accepts := by
  rw [parse_spec h]
  cases h with
  | mk hk =>
      cases hk with
      | absent => exact Or.inl rfl
      | inward => exact Or.inl rfl
      | outward => exact Or.inr rfl

/-- The parser does with a string what is documented if, and only if, the string has the
documented form or is one of those that are refused. -/
theorem spec_accepted_iff (einval : Bool) (s : List UInt8) :
    AsDocumented einval s ↔ (∃ d p A q, Spec s d p A q) ∨ Refused einval s := by
  constructor
  · intro hdoc
    by_cases href : Refused einval s
    · exact Or.inr href
    · exact Or.inl (hdoc.1.mp ((accepts_iff einval 30 s).mpr href))
  · rintro (⟨d, p, A, q, hs⟩ | href)
    · refine ⟨⟨fun _ => ⟨d, p, A, q, hs⟩, fun _ => hs.accepts einval⟩, fun _ => ?_⟩
      refine ⟨d, p, A, q, hs, ?_⟩
      rw [parse_spec hs]
      exact ⟨rfl, rfl⟩
    · have hno : ¬ (parse_address_spec einval s 30).Accepts :=
        fun hacc => (accepts_iff einval 30 s).mp hacc href
      refine ⟨⟨fun hacc => absurd hacc hno, ?_⟩, fun hacc => absurd hacc hno⟩
      rintro ⟨d, p, A, q, hs⟩
      exact absurd (hs.accepts einval) hno

/-! ## `main` -/

/-- How `main` goes on. -/
inductive Run where
  | usage
  | tunnel (daemonize : Bool) (direction : ℤ) (listen_port : UInt32) (target_ip : List UInt8)
      (target_port : UInt32)
  deriving DecidableEq

/-- `main` from the call of `parse_address_spec`; `stack` is what `target_ip` holds before. -/
def main_spec (einval : Bool) (stack : List UInt8) (daemonize : Bool)
    (address_spec : List UInt8) : Run :=
  let r := parse_address_spec einval address_spec stack.length
  if r.retval < 0 then .usage
  else if DIR_IN = r.retval ∨ DIR_OUT = r.retval then
    .tunnel daemonize r.retval (r.out.listen_port.getD 0) (r.out.target_ip.getD stack)
      (r.out.target_port.getD 0)
  else .usage

def main (einval : Bool) (stack : List UInt8) (argv : List (List UInt8)) : Run :=
  match argv with
  | [_, address_spec] => main_spec einval stack false address_spec
  | [_, option, address_spec] =>
      if has_prefix option "-d" || has_prefix option "--daemonize" then
        main_spec einval stack true address_spec
      else .usage
  | _ => .usage

/-- `8080` is accepted, and the tunnel gets for its target what is on the stack. -/
theorem spec_accepted_short :
    ¬ AsDocumented false (ascii "8080") ∧
      main false (List.replicate 30 0xaa) [ascii "tunnel", ascii "8080"]
        = .tunnel false DIR_IN 8080 (List.replicate 30 0xaa) 0 := by
  have hrun : parse_address_spec false (ascii "8080") 30
      = ⟨DIR_IN, { listen_port := some 8080 }, none⟩ := by decide +kernel
  refine ⟨?_, ?_⟩
  · rintro ⟨-, hout⟩
    rw [hrun] at hout
    obtain ⟨d, p, A, q, -, -, he⟩ := hout (Or.inl rfl)
    exact absurd (congrArg Outputs.target_ip he) (Option.some_ne_none _).symm
  · decide +kernel

/-- What `main` starts for a string of the grammar. -/
theorem main_tunnel {einval : Bool} {stack prog s A : List UInt8} {d : ℤ} {p q : ℕ}
    (hstack : stack.length = 30) (h : Spec s d p A q) :
    main einval stack [prog, s]
      = .tunnel false d (UInt32.ofNat p) (A ++ List.replicate (30 - A.length) 0)
          (UInt32.ofNat q) := by
  have hacc := h.accepts einval
  have hneg : ¬ d < 0 := by
    rw [parse_spec h] at hacc
    rcases hacc with rfl | rfl <;> decide
  rw [parse_spec h] at hacc
  rw [main, main_spec, hstack, parse_spec h]
  simp only [if_neg hneg, assigned, Option.getD_some]
  rw [if_pos (hacc.imp Eq.symm Eq.symm)]

/-! ## The round trip -/

/-- Parsing gives back the direction, the ports and the address that are printed. -/
theorem spec_round_trip {einval : Bool} {k A : List UInt8} {d : ℤ} {p q : ℕ}
    (hk : Keyword k d) (hp : p ≤ 65535) (hq : q ≤ 65535) (hne : A ≠ []) (hcolon : colon ∉ A)
    (hnul : 0 ∉ A) (hlen : A.length ≤ 29) :
    ∃ listen_port target_ip target_port,
      parse_address_spec einval (k ++ (decimal p ++ colon :: (A ++ colon :: decimal q))) 30
        = ⟨d, ⟨some listen_port, some target_ip, some target_port⟩, none⟩ ∧
      listen_port.toNat = p ∧ target_port.toNat = q ∧ target_ip.length = 30 ∧
      target_ip.takeWhile (· != 0) = A ∧ target_ip[A.length]? = some 0 := by
  have hspec := Spec.mk hk (decimal_numeral p) hp hne hcolon hlen (decimal_numeral q) hq
  have hport : ∀ n : ℕ, n ≤ 65535 → (UInt32.ofNat n).toNat = n := by
    intro n hn
    exact UInt32.toNat_ofNat_of_lt' (Nat.lt_of_le_of_lt hn (by decide))
  refine ⟨_, _, _, parse_spec hspec, hport p hp, hport q hq, ?_, ?_, ?_⟩
  · rw [List.length_append, List.length_replicate]
    omega
  · have hA : ∀ c ∈ A, (c != 0) = true := fun c hc => bne_iff_ne.mpr (fun h => hnul (h ▸ hc))
    rw [List.takeWhile_append_of_pos hA]
    obtain ⟨m, hm⟩ : ∃ m, 30 - A.length = m + 1 := ⟨29 - A.length, by omega⟩
    rw [hm, List.replicate_succ]
    exact List.append_nil A
  · rw [List.getElem?_append_right le_rfl, Nat.sub_self, List.getElem?_replicate,
      if_pos (by omega)]

theorem spec_round_trip_decimal :
    ∃ listen_port target_ip target_port,
      parse_address_spec true
          (ascii "out" ++ [colon] ++ (decimal 80 ++ colon :: (ascii "in" ++ colon :: decimal 0))) 30
        = ⟨DIR_OUT, ⟨some listen_port, some target_ip, some target_port⟩, none⟩ ∧
      listen_port.toNat = 80 ∧ target_port.toNat = 0 ∧ target_ip.length = 30 ∧
      target_ip.takeWhile (· != 0) = ascii "in" ∧ target_ip[(ascii "in").length]? = some 0 :=
  spec_round_trip .outward (by decide) (by decide) (by decide) (by decide) (by decide) (by decide)

end XnuQemuTools.AddressSpec

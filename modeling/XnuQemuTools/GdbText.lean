/-
What the scripts say to gdb and what they read of its answers (`gdb/xnu/utils.py`).

gdb has no other interface for reading memory than its command line. `execute_get_val`
puts a command together, has gdb print the answer, cuts it at the blanks and reads the
second word as a number; `print_val` takes the third word, and `execute_get_string` takes
all of them but the first. The other modules start one level above that, from commands
that are answered with values. Here each of those commands is a program over texts
(`lower`), and a script of the upper level becomes one of the lower (`overText`).

What gdb prints is `ShowsValue`, `ShowsText` and `ShowsPrint`, and `Speaks T h` says that
the texts of `T` are what gdb prints where the commands of `h` answer as they do. Where gdb
knows a symbol for an address it prints that behind the address. The second word of a
value is then the symbol, which is no number, so the read fails; a text has the symbol in
front. `scripts_over_text` is that every script ends over the texts as it does over the
values.

Logging is left out.
-/
import XnuQemuTools.Gdb
import XnuQemuTools.Layers
import XnuQemuTools.PythonText
import Mathlib.Data.Option.Basic

set_option autoImplicit false

namespace XnuQemuTools.GdbText

open Calls Calls.Prog Exceptions Gdb PythonText

/-! ## The module `gdb` -/

/-- What the scripts call of gdb's module: `execute` with `to_string=True` and without. -/
inductive TextOp where
  | execute (command : String)
  | run (command : String)
  | Breakpoint (spec : String)
  | set_enabled (bp : ℕ) (value : Bool)
  | set_silent (bp : ℕ) (value : Bool)
  | delete (bp : ℕ)
  | write (text : String)
  deriving DecidableEq

abbrev TextVal : TextOp → Type
  | .execute _ => String
  | .Breakpoint _ => ℕ
  | _ => Unit

abbrev TextScript (α : Type) : Type := Raising TextOp TextVal Exn α

abbrev TextSession (σ : Type) : Type := Handler TextOp (fun op => Except Exn (TextVal op)) σ

/-! ## `utils.py` -/

/-- `gdb.execute(command, to_string=True)`. -/
def execute (command : String) : TextScript String := request (TextOp.execute command)

/-- What cannot ask gdb any more. -/
def ofExcept {α : Type} (r : Except Exn α) : TextScript α := ExceptT.mk (ret r)

/-- `words[i]`. -/
def word (words : List Text) (i : ℕ) : Except Exn Text :=
  match words[i]? with
  | some w => .ok w
  | none => .error .IndexError

/-- `int(w, 0)`. -/
def int_ (w : Text) : Except Exn ℤ :=
  match int0 w with
  | some n => .ok n
  | none => .error .ValueError

/-- `int(res.split()[i], 0)`. -/
def int_at (i : ℕ) (res : String) : Except Exn ℤ := do
  let w ← word (split res.toList) i
  int_ w

/-- `" ".join(res.split()[1:])`. -/
def join_from (res : String) : String := String.ofList (unwords ((split res.toList).drop 1))

/-- What `execute_get_val` tries. Nothing is made of what `check_arguments` returns. -/
def get_val (val : ℤ) (size : String) : TextScript ℤ := do
  let res ← execute ("x /1x" ++ size ++ " " ++ hex val)
  ofExcept (int_at 1 res)

/-- What `execute_get_string` tries. -/
def get_string (value : ℤ) : TextScript String := do
  let res ← execute ("x /1s " ++ toString value)
  return join_from res

/-- What `print_val` tries. -/
def get_print (var : String) : TextScript ℤ := do
  let res ← execute ("print /1x " ++ var)
  ofExcept (int_at 2 res)

/-- `try: … except Exception: raise gdb.GdbError(traceback.format_exc())`. -/
def reraised {α : Type} (p : TextScript α) : TextScript α :=
  tryCatch p fun e => throw (.GdbError (format_exc e))

def execute_get_val (val : ℤ) (size : String) : TextScript ℤ := reraised (get_val val size)
def execute_get_string (value : ℤ) : TextScript String := reraised (get_string value)
def print_val (var : String) : TextScript ℤ := reraised (get_print var)

/-! ## One level for the other -/

/-- What a command of the upper level is over texts. -/
def lower : (op : GdbOp) → TextScript (GdbVal op)
  | .x_g addr => get_val addr "g"
  | .x_w addr => get_val addr "w"
  | .x_s addr => get_string addr
  | .print var => get_print var
  | .continue => request (TextOp.run "continue")
  | .Breakpoint spec => request (TextOp.Breakpoint spec)
  | .set_enabled bp value => request (TextOp.set_enabled bp value)
  | .set_silent bp value => request (TextOp.set_silent bp value)
  | .delete bp => request (TextOp.delete bp)
  | .enable_br => request (TextOp.run "enable br")
  | .disable_br => request (TextOp.run "disable br")
  | .write text => request (TextOp.write text)

/-- A script over texts. -/
def overText {α : Type} (p : Script α) : TextScript α :=
  ExceptT.mk (interpret (fun op => (lower op).run) p.run)

theorem overText_request (op : GdbOp) : overText (request op) = lower op :=
  bind_ret (lower op).run

theorem overText_reraise {α : Type} (p : Script α) :
    overText (reraise p) = reraised (overText p) := by
  refine (interpret_bind (fun op => (lower op).run) p.run _).trans ?_
  refine congrArg ((interpret (fun op => (lower op).run) p.run) >>= ·) (funext fun r => ?_)
  cases r with
  | ok a => rfl
  | error e => rfl

/-- **The functions of `utils.py`** are the ones of the upper level over texts. -/
theorem overText_utils (addr : ℤ) (var : String) :
    overText (get_8_byte_at addr) = execute_get_val addr "g"
      ∧ overText (get_4_byte_at addr) = execute_get_val addr "w"
      ∧ overText (get_string_at addr) = execute_get_string addr
      ∧ overText (Gdb.print_val var) = print_val var := by
  have hutil : ∀ op, overText (reraise (request op)) = reraised (lower op) := by
    intro op
    rw [overText_reraise, overText_request]
  exact ⟨hutil _, hutil _, hutil _, hutil _⟩

/-! ## What gdb prints -/

/-- The answer to `x /1xg` or `x /1xw`: the address, its symbol if there is one, and the
number in base 16. -/
inductive ShowsValue : Except Exn ℤ → Except Exn String → Prop
  | value (place : Text) (zeros n : ℕ) (hplace : Word place) :
      ShowsValue (.ok n) (.ok (String.ofList (place ++ ":\t".toList ++ padded zeros n ++ ['\n'])))
  | symbol (place name rest : Text) (hplace : Word place) (hne : place ≠ []) :
      ShowsValue (.error .ValueError) (.ok (String.ofList (place ++ " <".toList ++ name ++ rest)))
  | raised (e : Exn) : ShowsValue (.error e) (.error e)

/-- The answer to `x /1s`: what stands behind the address, with single blanks. -/
inductive ShowsText : Except Exn String → Except Exn String → Prop
  | text (place shown : Text) (hplace : Word place) :
      ShowsText (.ok (String.ofList (unwords (split shown))))
        (.ok (String.ofList (place ++ ":\t".toList ++ shown ++ ['\n'])))
  | symbol (place name shown : Text) (hplace : Word place) (hne : place ≠ []) :
      ShowsText (.ok (String.ofList (unwords (split ('<' :: name ++ ">:\t".toList ++ shown)))))
        (.ok (String.ofList (place ++ " <".toList ++ name ++ ">:\t".toList ++ shown ++ ['\n'])))
  | raised (e : Exn) : ShowsText (.error e) (.error e)

/-- The answer to `print /1x`: its number in the history, and the value if there is one. -/
inductive ShowsPrint : Except Exn ℤ → Except Exn String → Prop
  | value (k n : ℕ) :
      ShowsPrint (.ok n)
        (.ok (String.ofList ('$' :: Nat.toDigits 10 k ++ " = ".toList ++ padded 0 n ++ ['\n'])))
  | void (k : ℕ) :
      ShowsPrint (.error .ValueError)
        (.ok (String.ofList ('$' :: Nat.toDigits 10 k ++ " = void\n".toList)))
  | raised (e : Exn) : ShowsPrint (.error e) (.error e)

/-- Two answers that belong together, in the same state. -/
abbrev Together {α σ : Type} (R : Except Exn α → Except Exn String → Prop) :
    Option (Except Exn α × σ) → Option (Except Exn String × σ) → Prop :=
  Option.Rel fun x y => R x.1 y.1 ∧ x.2 = y.2

variable {σ : Type}

/-- The texts of `T` are what gdb prints where the commands are answered as in `h`. -/
structure Speaks (T : TextSession σ) (h : Session σ) : Prop where
  x_g : ∀ addr s, Together ShowsValue (h (.x_g addr) s) (T (.execute ("x /1xg " ++ hex addr)) s)
  x_w : ∀ addr s, Together ShowsValue (h (.x_w addr) s) (T (.execute ("x /1xw " ++ hex addr)) s)
  x_s : ∀ addr s,
    Together ShowsText (h (.x_s addr) s) (T (.execute ("x /1s " ++ toString addr)) s)
  print : ∀ var s, Together ShowsPrint (h (.print var) s) (T (.execute ("print /1x " ++ var)) s)
  continues : ∀ s, h .continue s = T (.run "continue") s
  enable_br : ∀ s, h .enable_br s = T (.run "enable br") s
  disable_br : ∀ s, h .disable_br s = T (.run "disable br") s
  Breakpoint : ∀ spec s, h (.Breakpoint spec) s = T (.Breakpoint spec) s
  set_enabled : ∀ bp value s, h (.set_enabled bp value) s = T (.set_enabled bp value) s
  set_silent : ∀ bp value s, h (.set_silent bp value) s = T (.set_silent bp value) s
  delete : ∀ bp s, h (.delete bp) s = T (.delete bp) s
  write : ∀ text s, h (.write text) s = T (.write text) s

/-! ## Reading it -/

theorem ok_bind {α β : Type} (a : α) (f : α → Except Exn β) :
    (Except.ok a : Except Exn α).bind f = f a := rfl

theorem int_at_word {i : ℕ} {text w : Text} (hword : (split text)[i]? = some w) :
    int_at i (String.ofList text) = int_ w := by
  have hw : word (split (String.ofList text).toList) i = .ok w := by
    rw [String.toList_ofList, word, hword]
  rw [int_at, hw]
  rfl

theorem int_padded (zeros n : ℕ) : int_ (padded zeros n) = .ok (n : ℤ) := by
  rw [int_, int0_padded]

theorem int_no_number {c : Char} (hspace : isSpace c = false) (hsign : c ≠ '-' ∧ c ≠ '+')
    (hdigit : 10 ≤ digitVal c) (text : Text) : int_ (c :: text) = .error .ValueError := by
  rw [int_, int0_eq_none hspace hsign hdigit]

/-- What stands behind an address and its colon. -/
theorem split_place {place : Text} (hplace : Word place) (shown : Text) :
    split (place ++ ":\t".toList ++ shown) = (place ++ [':']) :: split shown := by
  have hword : Word (place ++ [':']) :=
    List.forall_mem_append.mpr ⟨hplace, List.forall_mem_singleton.mpr (by decide)⟩
  have htext : place ++ ":\t".toList ++ shown = (place ++ [':']) ++ '\t' :: shown := by simp
  rw [htext, split_word hword (by simp) (by decide)]

/-- What stands behind an address that has a symbol. -/
theorem split_symbol {place : Text} (hplace : Word place) (hne : place ≠ []) (shown : Text) :
    split (place ++ " <".toList ++ shown) = place :: split ('<' :: shown) := by
  have htext : place ++ " <".toList ++ shown = place ++ ' ' :: '<' :: shown := by simp
  rw [htext, split_word hplace hne (by decide)]

theorem split_padded (zeros n : ℕ) : split (padded zeros n ++ ['\n']) = [padded zeros n] :=
  split_word (word_padded zeros n) (by simp [padded]) (by decide) []

theorem ShowsValue.read {r : Except Exn ℤ} {t : Except Exn String} (h : ShowsValue r t) :
    t.bind (int_at 1) = r := by
  cases h with
  | value place zeros n hplace =>
      have hword : (split (place ++ ":\t".toList ++ padded zeros n ++ ['\n']))[1]?
          = some (padded zeros n) := by
        rw [List.append_assoc, split_place hplace, split_padded]
        rfl
      rw [ok_bind, int_at_word hword, int_padded]
  | symbol place name rest hplace hne =>
      -- the second word begins with the bracket
      obtain ⟨w, more, hsplit⟩ := split_cons (by decide : isSpace '<' = false) (name ++ rest)
      have hword : (split (place ++ " <".toList ++ name ++ rest))[1]? = some ('<' :: w) := by
        rw [List.append_assoc, split_symbol hplace hne, hsplit]
        rfl
      rw [ok_bind, int_at_word hword, int_no_number (by decide) (by decide) (by decide)]
  | raised e => rfl

theorem ShowsText.read {r : Except Exn String} {t : Except Exn String} (h : ShowsText r t) :
    t.bind (fun res => .ok (join_from res)) = r := by
  cases h with
  | text place shown hplace =>
      refine congrArg Except.ok (congrArg (fun words => String.ofList (unwords words)) ?_)
      rw [String.toList_ofList, split_concat (by decide), split_place hplace, List.drop_one,
        List.tail_cons]
  | symbol place name shown hplace hne =>
      refine congrArg Except.ok (congrArg (fun words => String.ofList (unwords words)) ?_)
      have htext : place ++ " <".toList ++ name ++ ">:\t".toList ++ shown
          = place ++ " <".toList ++ (name ++ ">:\t".toList ++ shown) := by simp
      rw [String.toList_ofList, split_concat (by decide), htext, split_symbol hplace hne,
        List.drop_one, List.tail_cons]
      simp
  | raised e => rfl

/-- What stands behind the number of a value in the history. -/
theorem split_dollar (k : ℕ) (shown : Text) :
    split ('$' :: Nat.toDigits 10 k ++ ' ' :: '=' :: ' ' :: shown)
      = ('$' :: Nat.toDigits 10 k) :: ['='] :: split shown := by
  have hword : Word ('$' :: Nat.toDigits 10 k) :=
    List.forall_mem_cons.mpr ⟨by decide, word_toDigits (by decide) (by decide) k⟩
  have hequals : split ('=' :: ' ' :: shown) = ['='] :: split shown :=
    split_word (List.forall_mem_singleton.mpr (by decide)) (by simp) (by decide) shown
  rw [split_word hword (by simp) (by decide), hequals]

theorem ShowsPrint.read {r : Except Exn ℤ} {t : Except Exn String} (h : ShowsPrint r t) :
    t.bind (int_at 2) = r := by
  cases h with
  | value k n =>
      have htext : '$' :: Nat.toDigits 10 k ++ " = ".toList ++ padded 0 n ++ ['\n']
          = '$' :: Nat.toDigits 10 k ++ ' ' :: '=' :: ' ' :: (padded 0 n ++ ['\n']) := by simp
      have hword : (split ('$' :: Nat.toDigits 10 k ++ " = ".toList ++ padded 0 n ++ ['\n']))[2]?
          = some (padded 0 n) := by
        rw [htext, split_dollar, split_padded]
        rfl
      rw [ok_bind, int_at_word hword, int_padded]
  | void k =>
      have htext : '$' :: Nat.toDigits 10 k ++ " = void\n".toList
          = '$' :: Nat.toDigits 10 k ++ ' ' :: '=' :: ' ' :: ['v', 'o', 'i', 'd', '\n'] := by simp
      have hword : (split ('$' :: Nat.toDigits 10 k ++ " = void\n".toList))[2]?
          = some ['v', 'o', 'i', 'd'] := by
        rw [htext, split_dollar]
        rfl
      rw [ok_bind, int_at_word hword, int_no_number (by decide) (by decide) (by decide)]
  | raised e => rfl

/-! ## Every script -/

section Sessions

variable {σ : Type} {T : TextSession σ} {h : Session σ}

theorem exec_execute {α : Type} (command : String) (f : String → Except Exn α) (s : σ) :
    exec T (do let res ← execute command; ofExcept (f res) : TextScript α).run s
      = (T (.execute command) s).map fun x => (x.1.bind f, x.2) := by
  refine (exec_bind T (request (TextOp.execute command)).run _ s).trans ?_
  rw [request, ExceptT.run_mk, perform, exec_call]
  rcases T (TextOp.execute command) s with - | ⟨r, s'⟩
  · rfl
  · cases r with
    | ok res => rfl
    | error e => rfl

theorem Together.read {α : Type} {R : Except Exn α → Except Exn String → Prop}
    {f : String → Except Exn α} (hR : ∀ r t, R r t → t.bind f = r)
    {o : Option (Except Exn α × σ)} {o' : Option (Except Exn String × σ)} (ho : Together R o o') :
    o'.map (fun x => (x.1.bind f, x.2)) = o := by
  cases ho with
  | none => rfl
  | some hxy => exact congrArg some (Prod.ext (hR _ _ hxy.1) hxy.2.symm)

/-- Each command, over texts, is answered as it is above. -/
theorem Speaks.lower (hT : Speaks T h) (op : GdbOp) (s : σ) : exec T (lower op).run s = h op s := by
  have hrequest : ∀ op s, exec T (request op : TextScript (TextVal op)).run s = T op s :=
    fun op s => Option.bind_fun_some (T op s)
  cases op with
  | x_g addr => exact (exec_execute _ _ s).trans ((hT.x_g addr s).read fun _ _ h => h.read)
  | x_w addr => exact (exec_execute _ _ s).trans ((hT.x_w addr s).read fun _ _ h => h.read)
  | x_s addr =>
      exact (exec_execute _ (fun res => .ok (join_from res)) s).trans
        ((hT.x_s addr s).read fun _ _ h => h.read)
  | print var => exact (exec_execute _ _ s).trans ((hT.print var s).read fun _ _ h => h.read)
  | «continue» => exact (hrequest _ s).trans (hT.continues s).symm
  | Breakpoint spec => exact (hrequest _ s).trans (hT.Breakpoint spec s).symm
  | set_enabled bp value => exact (hrequest _ s).trans (hT.set_enabled bp value s).symm
  | set_silent bp value => exact (hrequest _ s).trans (hT.set_silent bp value s).symm
  | delete bp => exact (hrequest _ s).trans (hT.delete bp s).symm
  | enable_br => exact (hrequest _ s).trans (hT.enable_br s).symm
  | disable_br => exact (hrequest _ s).trans (hT.disable_br s).symm
  | write text => exact (hrequest _ s).trans (hT.write text s).symm

/-- **Every script ends over gdb's texts as it does over the values they show**: with the
same result or exception, in the same state. -/
theorem scripts_over_text (hT : Speaks T h) {α : Type} (p : Script α) (s : σ) (r : Except Exn α)
    (s' : σ) : Exceptions.Ends T (overText p) s r s' ↔ Exceptions.Ends h p s r s' := by
  have hrun : exec T (overText p).run s = exec h p.run s :=
    exec_interpret (fun op s => hT.lower op s) p.run s
  unfold Exceptions.Ends
  rw [hrun]

end Sessions

/-! ## A small gdb -/

/-- The address in a command is the one that was asked for. -/
theorem int0_hex (addr : ℤ) : int0 (hex addr).toList = some addr := by
  by_cases hneg : addr < 0
  · have htext : (hex addr).toList = '-' :: padded 0 addr.natAbs := by
      simp [hex, hneg, padded]
    rw [htext, int0_neg_padded]
    exact congrArg some (by omega)
  · have htext : (hex addr).toList = padded 0 addr.natAbs := by
      simp [hex, hneg, padded]
    rw [htext, int0_padded]
    exact congrArg some (by omega)

theorem split_hex (addr : ℤ) : split (hex addr).toList = [(hex addr).toList] := by
  have hword : Word (hex addr).toList := by
    rw [hex, String.toList_append, String.toList_ofList]
    refine List.forall_mem_append.mpr ⟨?_, word_toDigits (by decide) le_rfl addr.natAbs⟩
    split <;> exact word_of_all (by decide)
  refine split_self hword ?_
  simp [hex]

/-- The words of a command. -/
theorem split_command {verb format : Text} (hverb : Word verb) (hv : verb ≠ [])
    (hformat : Word format) (hf : format ≠ []) (rest : Text) :
    split (verb ++ ' ' :: (format ++ ' ' :: rest)) = verb :: format :: split rest := by
  rw [split_word hverb hv (by decide), split_word hformat hf (by decide)]

/-- A gdb that knows a symbol at 0x2000; every other word of the kernel is 5. -/
def smallGdb : TextSession (List String)
  | .execute command, out =>
      match split command.toList with
      | _ :: format :: rest =>
          if format = "/1s".toList then some (.ok "0x1000:\t\"launchd\"\n", out)
          else if format = "/1x".toList then some (.ok "$1 = 0x5\n", out)
          else if rest.head?.bind int0 = some 0x2000 then
            some (.ok "0x2000 <start>:\t0x0000000000000007\n", out)
          else some (.ok "0x1000:\t0x0000000000000005\n", out)
      | _ => none
  | .write text, out => some (.ok (), out ++ [text])
  | _, _ => none

/-- The same, one level above. -/
def smallSession : Session (List String)
  | .x_g addr, out | .x_w addr, out =>
      some (if addr = 0x2000 then .error .ValueError else .ok 5, out)
  | .x_s _, out => some (.ok "\"launchd\"", out)
  | .print _, out => some (.ok 5, out)
  | .write text, out => some (.ok (), out ++ [text])
  | _, _ => none

theorem smallGdb_value (addr : ℤ) (size : Char) (hsize : size = 'g' ∨ size = 'w')
    (out : List String) :
    Together ShowsValue (some (if addr = 0x2000 then .error .ValueError else .ok 5, out))
      (smallGdb (.execute ("x /1x" ++ String.ofList [size] ++ " " ++ hex addr)) out) := by
  have hsplit : split ("x /1x" ++ String.ofList [size] ++ " " ++ hex addr).toList
      = ['x'] :: ['/', '1', 'x', size] :: [(hex addr).toList] := by
    have htext : ("x /1x" ++ String.ofList [size] ++ " " ++ hex addr).toList
        = ['x'] ++ ' ' :: (['/', '1', 'x', size] ++ ' ' :: (hex addr).toList) := by simp
    rw [htext, split_command (word_of_all (by decide)) (by simp) (word_of_all ?_) (by simp),
      split_hex]
    rcases hsize with rfl | rfl <;> decide
  have hformat : ['/', '1', 'x', size] ≠ "/1s".toList ∧ ['/', '1', 'x', size] ≠ "/1x".toList := by
    rcases hsize with rfl | rfl <;> decide
  have hgdb : smallGdb (.execute ("x /1x" ++ String.ofList [size] ++ " " ++ hex addr)) out
      = if addr = 0x2000 then some (.ok "0x2000 <start>:\t0x0000000000000007\n", out)
        else some (.ok "0x1000:\t0x0000000000000005\n", out) := by
    simp only [smallGdb, hsplit, if_neg hformat.1, if_neg hformat.2, List.head?_cons,
      Option.bind_some, int0_hex, Option.some.injEq]
  rw [hgdb]
  split
  · exact Option.Rel.some ⟨.symbol "0x2000".toList "start".toList ">:\t0x0000000000000007\n".toList
      (word_of_all (by decide)) (by decide), rfl⟩
  · exact Option.Rel.some ⟨.value "0x1000".toList 15 5 (word_of_all (by decide)), rfl⟩

theorem smallGdb_speaks : Speaks smallGdb smallSession where
  x_g addr out := smallGdb_value addr 'g' (Or.inl rfl) out
  x_w addr out := smallGdb_value addr 'w' (Or.inr rfl) out
  x_s addr out := by
    have hsplit : split ("x /1s " ++ toString addr).toList
        = ['x'] :: "/1s".toList :: split (toString addr).toList := by
      have htext : ("x /1s " ++ toString addr).toList
          = ['x'] ++ ' ' :: ("/1s".toList ++ ' ' :: (toString addr).toList) := by simp
      rw [htext, split_command (word_of_all (by decide)) (by simp) (word_of_all (by decide))
        (by simp)]
    have hgdb : smallGdb (.execute ("x /1s " ++ toString addr)) out
        = some (.ok "0x1000:\t\"launchd\"\n", out) := by
      simp only [smallGdb, hsplit, if_true]
    rw [hgdb]
    exact Option.Rel.some
      ⟨.text "0x1000".toList "\"launchd\"".toList (word_of_all (by decide)), rfl⟩
  print var out := by
    have hsplit : split ("print /1x " ++ var).toList
        = "print".toList :: "/1x".toList :: split var.toList := by
      have htext : ("print /1x " ++ var).toList
          = "print".toList ++ ' ' :: ("/1x".toList ++ ' ' :: var.toList) := by simp
      rw [htext, split_command (word_of_all (by decide)) (by simp) (word_of_all (by decide))
        (by simp)]
    have hne : "/1x".toList ≠ "/1s".toList := by decide
    have hgdb : smallGdb (.execute ("print /1x " ++ var)) out = some (.ok "$1 = 0x5\n", out) := by
      simp only [smallGdb, hsplit, if_neg hne, if_true]
    rw [hgdb]
    exact Option.Rel.some ⟨.value 1 5, rfl⟩
  continues _ := rfl
  enable_br _ := rfl
  disable_br _ := rfl
  Breakpoint _ _ := rfl
  set_enabled _ _ _ := rfl
  set_silent _ _ _ := rfl
  delete _ _ := rfl
  write _ _ := rfl

/-- A word that is read, and one with a symbol that is not. -/
theorem scripts_over_text_small :
    Exceptions.Ends smallGdb (overText is_in_kernel_space) [] (.ok true) []
      ∧ Exceptions.Ends smallGdb (overText (get_8_byte_at 0x2000)) []
        (.error (.GdbError "ValueError")) [] :=
  ⟨(scripts_over_text smallGdb_speaks _ _ _ _).mpr rfl,
    (scripts_over_text smallGdb_speaks _ _ _ _).mpr rfl⟩

end XnuQemuTools.GdbText

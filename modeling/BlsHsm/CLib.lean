import Mathlib.Data.Fintype.Pi
import Mathlib.Data.List.Infix

/-! The part of the C runtime the signer's code relies on: the `<string.h>` and
`<stdlib.h>` functions `httpRemote.h` calls, over character lists whose end reads as
`NUL`, and fixed-size arrays whose out-of-bounds accesses stop the run with a
`Fault` instead of touching memory the model does not have. -/

namespace BlsHsm.CLib

/-! ## Strings -/

/-- The C string a `char*` designates: the characters before the first `NUL`. -/
def cstr (s : List Char) : List Char := s.takeWhile (· ≠ '\x00')

/-- `strncmp(a, b, n)`; the end of a list reads as `NUL`. -/
def strncmp : Nat → List Char → List Char → Int
  | 0, _, _ => 0
  | n + 1, a, b =>
    if a.headD '\x00' ≠ b.headD '\x00' then
      ((a.headD '\x00').toNat : Int) - (b.headD '\x00').toNat
    else if a.headD '\x00' = '\x00' then 0
    else strncmp n a.tail b.tail

/-- `strstr(hay, pat)` on a `NUL`-free haystack: the offset of the first occurrence. -/
def strstr : List Char → List Char → Option Nat
  | [], pat => if pat = [] then some 0 else none
  | c :: t, pat => if pat.isPrefixOf (c :: t) then some 0 else (strstr t pat).map (· + 1)

/-- `strchr(s, c)` on a `NUL`-free string: the offset of the first `c`. -/
def strchr (s : List Char) (c : Char) : Option Nat := s.indexOf? c

/-- `isspace` in the C locale. -/
def isspace (c : Char) : Bool :=
  c = ' ' || c = '\t' || c = '\n' || c = '\x0b' || c = '\x0c' || c = '\r'

/-- The value of a run of decimal digits. -/
def decimalValue (ds : List Char) : Nat :=
  ds.foldl (fun acc c => 10 * acc + (c.toNat - '0'.toNat)) 0

/-- `atoi`: leading blanks, an optional sign, then the longest run of digits. -/
def atoi (s : List Char) : Int :=
  match s.dropWhile isspace with
  | '-' :: t => -(decimalValue (t.takeWhile Char.isDigit) : Int)
  | '+' :: t => decimalValue (t.takeWhile Char.isDigit)
  | t => decimalValue (t.takeWhile Char.isDigit)

/-- `sprintf(buf, "%d", n)`. -/
def sprintfD (n : Int) : List Char := (toString n).toList

/-- `strncpy(dst, src, n)`: at most `n` characters of `src`, padded with `NUL` to `n`. -/
def strncpy (src : List Char) (n : Nat) : List Char :=
  (cstr src).take n ++ List.replicate (n - (cstr src).length) '\x00'

/-- What `strncat(dst, src, n)` appends to `dst`. -/
def strncat (src : List Char) (n : Nat) : List Char := (cstr src).take n

/-- A hexadecimal digit, either case. -/
def isHexDigit (c : Char) : Bool :=
  c.isDigit || ('a' ≤ c && c ≤ 'f') || ('A' ≤ c && c ≤ 'F')

theorem cstr_of_forall {s : List Char} (h : ∀ c ∈ s, c ≠ '\x00') : cstr s = s := by
  exact List.takeWhile_eq_self_iff.mpr fun c hc => by simpa using h c hc

theorem cstr_append (a b : List Char) (h : ∀ c ∈ a, c ≠ '\x00') : cstr (a ++ b) = a ++ cstr b :=
  List.takeWhile_append_of_pos fun c hc => by simpa using h c hc

theorem cstr_cons {c : Char} (s : List Char) (h : c ≠ '\x00') : cstr (c :: s) = c :: cstr s := by
  simp [cstr, h]

theorem cstr_ne_nul {s : List Char} {c : Char} (h : c ∈ cstr s) : c ≠ '\x00' := by
  simpa using List.mem_takeWhile_imp h

/-- The first `n` characters of a string with no `NUL` among them are its C string's. -/
theorem cstr_take : ∀ {s : List Char} {n : Nat}, (∀ c ∈ s.take n, c ≠ '\x00') →
    (cstr s).take n = s.take n
  | [], _, _ => by simp [cstr]
  | _ :: _, 0, _ => by simp
  | c :: s, n + 1, h => by
    rw [cstr_cons s (h c (by simp)), List.take_succ_cons, List.take_succ_cons,
      cstr_take fun d hd => h d (by simp [hd])]

/-- `strncat` of what `strncpy` wrote reads back the characters it copied. -/
theorem strncat_strncpy (src : List Char) (n : Nat) :
    strncat (strncpy src n) n = (cstr src).take n := by
  have hpad : ∀ k, cstr (List.replicate k '\x00') = [] := fun k => by
    cases k <;> simp [cstr, List.replicate_succ]
  rw [strncat, strncpy, cstr_append _ _ fun c hc => cstr_ne_nul (List.mem_of_mem_take hc), hpad,
    List.append_nil, List.take_take, min_self]

theorem strncmp_ne_zero_of_head {n : Nat} {a b : List Char} (hn : 0 < n)
    (h : a.headD '\x00' ≠ b.headD '\x00') : strncmp n a b ≠ 0 := by
  obtain ⟨n, rfl⟩ := Nat.exists_eq_add_of_lt hn
  have : (a.headD '\x00').toNat ≠ (b.headD '\x00').toNat := fun e =>
    h (by rw [← Char.ofNat_toNat (a.headD _), e, Char.ofNat_toNat])
  simp only [Nat.zero_add, strncmp, ne_eq, h, not_false_eq_true, ↓reduceIte]
  omega

/-- `strncmp` that has matched one character goes on with the rest. -/
theorem strncmp_cons_cons (n : Nat) (c : Char) (a b : List Char) (hc : c ≠ '\x00') :
    strncmp (n + 1) (c :: a) (c :: b) = strncmp n a b := by
  simp [strncmp, hc]

/-- `strncmp(a, b, strlen(b))` against a `b` with no `NUL` is zero iff `a` starts with
`b`. -/
theorem strncmp_eq_zero_iff : ∀ {a b : List Char}, (∀ c ∈ b, c ≠ '\x00') →
    (strncmp b.length a b = 0 ↔ b <+: a)
  | _, [], _ => by simp [strncmp]
  | [], c :: b, h => by
    simp only [List.prefix_nil, reduceCtorEq, iff_false]
    exact strncmp_ne_zero_of_head (by simp) (by simpa using (h c (by simp)).symm)
  | d :: a, c :: b, h => by
    by_cases hdc : d = c
    · subst hdc
      rw [List.length_cons, strncmp_cons_cons _ _ _ _ (h d (by simp)), List.prefix_cons_inj]
      exact strncmp_eq_zero_iff fun c hc => h c (by simp [hc])
    · simp only [List.cons_prefix_cons, Ne.symm hdc, false_and, iff_false]
      exact strncmp_ne_zero_of_head (by simp) (by simpa using hdc)

/-- A length test and `strncmp` against a `b` with no `NUL`: string equality. -/
theorem strncmp_eq_zero_iff_eq {a b : List Char} (hb : ∀ c ∈ b, c ≠ '\x00') :
    (a.length = b.length ∧ strncmp b.length a b = 0) ↔ a = b := by
  rw [strncmp_eq_zero_iff hb]
  exact ⟨fun ⟨hl, hp⟩ => (hp.eq_of_length hl.symm).symm, fun h => ⟨by rw [h], by rw [h]⟩⟩

theorem strstr_of_prefix {s pat : List Char} (h : pat <+: s) : strstr s pat = some 0 := by
  cases s with
  | nil => simp [strstr, List.prefix_nil.mp h]
  | cons c t => simp [strstr, h]

theorem strstr_eq_none {s pat : List Char} (hp : pat ≠ []) (h : ¬ pat <:+: s) :
    strstr s pat = none := by
  induction s with
  | nil => simp [strstr, hp]
  | cons c t ih =>
    have hpre : ¬ pat <+: c :: t := fun h' => h h'.isInfix
    simp [strstr, hpre, ih fun h' => h (h'.trans (List.suffix_cons c t).isInfix)]

/-- A pattern that does not contain `c` cannot start in `Y` and run across a `c`
that follows it. -/
theorem not_prefix_append_cons {pat Y t : List Char} {c : Char} (hc : c ∉ pat)
    (hY : ¬ pat <+: Y) : ¬ pat <+: Y ++ c :: t := by
  intro h
  rcases List.prefix_or_prefix_of_prefix h (List.prefix_append Y (c :: t)) with h' | ⟨u, rfl⟩
  · exact hY h'
  · rw [List.prefix_append_right_inj] at h
    cases u with
    | nil => exact hY (by simp)
    | cons d u => exact hc (by obtain ⟨rfl, -⟩ := List.cons_prefix_cons.mp h; simp)

/-- The first occurrence of a pattern that does not contain `c`, in a haystack that
has no occurrence before that `c`. -/
theorem strstr_append_cons {X t pat : List Char} {c : Char} (hc : c ∉ pat)
    (hX : ¬ pat <:+: X) : strstr (X ++ c :: t) pat = (strstr (c :: t) pat).map (· + X.length) := by
  induction X with
  | nil => simp
  | cons x X ih =>
    have hpre : ¬ pat <+: x :: X ++ c :: t :=
      not_prefix_append_cons hc fun h => hX h.isInfix
    rw [List.cons_append, strstr, if_neg (by simpa using hpre),
      ih fun h => hX (h.trans (List.suffix_cons x X).isInfix), Option.map_map]
    rfl

/-- `strstr` on the first `m` characters finds the first occurrence when it ends by `m`. -/
theorem strstr_take (s pat : List Char) (hp : pat ≠ []) (m : Nat) :
    strstr (s.take m) pat = (strstr s pat).filter (fun p => p + pat.length ≤ m) := by
  have hl : 0 < pat.length := List.length_pos.mpr hp
  have hnil : strstr [] pat = none := by simp [strstr, hp]
  induction s generalizing m with
  | nil => simp [hnil]
  | cons c t ih =>
    cases m with
    | zero =>
      rw [List.take_zero, hnil]
      cases strstr (c :: t) pat with
      | none => rfl
      | some p => rw [Option.filter_some, if_neg (by simp only [decide_eq_true_eq]; omega)]
    | succ m =>
      have hpre : pat <+: c :: t.take m ↔ pat <+: c :: t ∧ pat.length ≤ m + 1 := by
        rw [← List.take_succ_cons, List.prefix_take_iff]
      rw [List.take_succ_cons, strstr, strstr, ih m]
      by_cases h : pat <+: c :: t
      · by_cases hm : pat.length ≤ m + 1
        · rw [if_pos (by simpa using hpre.mpr ⟨h, hm⟩), if_pos (by simpa using h),
            Option.filter_some, if_pos (by simpa using hm)]
        · rw [if_neg (by simpa [hpre] using fun _ => hm), if_pos (by simpa using h),
            Option.filter_some, if_neg (by simpa using hm)]
          cases strstr t pat with
          | none => rfl
          | some p => rw [Option.filter_some, if_neg (by simp only [decide_eq_true_eq]; omega)]; rfl
      · rw [if_neg (by simpa [hpre] using fun h' => absurd h' h), if_neg (by simpa using h)]
        cases strstr t pat with
        | none => rfl
        | some p =>
          simp only [Option.map_some', Option.filter_some, decide_eq_true_eq]
          split_ifs <;> first | rfl | omega

theorem strchr_append_of_not_mem {a b : List Char} {c : Char} (h : c ∉ a) :
    strchr (a ++ b) c = (strchr b c).map (· + a.length) := by
  have : List.findIdx? (· == c) a = none := List.findIdx?_eq_none_iff.mpr (by simpa using fun x hx (e : x = c) => h (e ▸ hx))
  simp [strchr, List.indexOf?, this]

theorem strchr_cons_self (c : Char) (s : List Char) : strchr (c :: s) c = some 0 := by
  simp [strchr, List.indexOf?]

theorem strchr_eq_none {s : List Char} {c : Char} (h : c ∉ s) : strchr s c = none := by
  simpa using strchr_append_of_not_mem (b := []) h

/-- `atoi` of a digit run ended by a character that is not a digit. -/
theorem atoi_digits {ds t : List Char} (hds : ds ≠ []) (hd : ∀ c ∈ ds, c.isDigit)
    {c : Char} (hc : c.isDigit = false) : atoi (ds ++ c :: t) = decimalValue ds := by
  obtain ⟨d, ds', rfl⟩ := List.exists_cons_of_ne_nil hds
  have hdd : d.isDigit := hd d (by simp)
  have hsp : isspace d = false := by
    simp only [isspace, Bool.or_eq_false_iff, decide_eq_false_iff_not]
    refine ⟨⟨⟨⟨⟨?_, ?_⟩, ?_⟩, ?_⟩, ?_⟩, ?_⟩ <;> rintro rfl <;> exact absurd hdd (by decide)
  have htw : (d :: ds' ++ c :: t).takeWhile Char.isDigit = d :: ds' := by
    rw [List.takeWhile_append_of_pos hd]; simp [hc]
  rw [atoi, List.cons_append, List.dropWhile_cons, if_neg (by simp [hsp]), ← List.cons_append]
  split
  · next h => exact absurd hdd (by obtain ⟨rfl, -⟩ := List.cons.inj h; decide)
  · next h => exact absurd hdd (by obtain ⟨rfl, -⟩ := List.cons.inj h; decide)
  · rw [htw]

/-! ## The `Except` monad -/

section ExceptLemmas
variable {ε α β : Type}

/-- Equality of results is decidable, so that a run on fixed inputs can be checked by
`decide`. -/
instance decEqExcept [DecidableEq ε] [DecidableEq α] : DecidableEq (Except ε α)
  | .ok x, .ok y => decidable_of_iff (x = y) ⟨congrArg _, Except.ok.inj⟩
  | .error x, .error y => decidable_of_iff (x = y) ⟨congrArg _, Except.error.inj⟩
  | .ok _, .error _ => isFalse fun h => Except.noConfusion h
  | .error _, .ok _ => isFalse fun h => Except.noConfusion h

@[simp] theorem bind_ok (a : α) (f : α → Except ε β) : (Except.ok a >>= f) = f a := rfl

@[simp] theorem bind_error (e : ε) (f : α → Except ε β) : (Except.error e >>= f) = .error e := rfl

theorem bind_eq_ok {x : Except ε α} {f : α → Except ε β} {b : β} :
    x >>= f = .ok b ↔ ∃ a, x = .ok a ∧ f a = .ok b := by
  cases x <;> simp [Except.error.injEq]

end ExceptLemmas

/-! ## Fixed-size arrays -/

/-- The arrays of the program whose bounds the model checks, and the request buffer
the body pointer points into. -/
inductive Region
  | secretKeysStore
  | publicKeysHexStore
  | publicKeys
  | keystores
  | passwords
  | requestBuffer
  deriving DecidableEq, Repr

/-- An access outside an array: undefined behaviour in C, the end of the run here. -/
inductive Fault
  | outOfBounds (region : Region) (index : Int)
  deriving DecidableEq, Repr

/-- `a[i]` for an array `a` of `n` elements. -/
def load {α : Type} {n : Nat} (a : Fin n → α) (r : Region) (i : Int) : Except Fault α :=
  if h : 0 ≤ i ∧ i < n then .ok (a ⟨i.toNat, by omega⟩) else .error (.outOfBounds r i)

/-- `a[i] = v` for an array `a` of `n` elements. -/
def store {α : Type} {n : Nat} (a : Fin n → α) (r : Region) (i : Int) (v : α) :
    Except Fault (Fin n → α) :=
  if h : 0 ≤ i ∧ i < n then .ok (Function.update a ⟨i.toNat, by omega⟩ v)
  else .error (.outOfBounds r i)

/-- `for (j = 0; j < k; j++) out[j] = a[base + j];`, read in order. -/
def loadBlock {α : Type} {n : Nat} (a : Fin n → α) (r : Region) (base : Int) :
    Nat → Except Fault (List α)
  | 0 => .ok []
  | k + 1 => do
    let v ← load a r base
    let vs ← loadBlock a r (base + 1) k
    .ok (v :: vs)

/-- `for (j = 0; j < len; j++) a[base + j] = src[j];`, written in order. -/
def storeBlock {α : Type} {n : Nat} (a : Fin n → α) (r : Region) (base : Int) :
    List α → Except Fault (Fin n → α)
  | [] => .ok a
  | v :: vs => do
    let a' ← store a r base v
    storeBlock a' r (base + 1) vs

variable {α : Type} {n : Nat} (a : Fin n → α) (r : Region)

theorem toNat_lt {i : Int} (h : 0 ≤ i ∧ i < n) : i.toNat < n := by omega

theorem block_lt {base : Int} {k : Nat} (h0 : 0 ≤ base) (hk : base + k ≤ n) (j : Fin k) :
    (base + j).toNat < n := by omega

theorem load_ok {i : Int} (h : 0 ≤ i ∧ i < n) : load a r i = .ok (a ⟨i.toNat, toNat_lt h⟩) := by
  simp [load, h]

theorem load_error {i : Int} (h : ¬(0 ≤ i ∧ i < n)) : load a r i = .error (.outOfBounds r i) := by
  simp [load, h]

theorem store_error {i : Int} (v : α) (h : ¬(0 ≤ i ∧ i < n)) :
    store a r i v = .error (.outOfBounds r i) := by
  simp [store, h]

theorem store_ok {i : Int} (v : α) (h : 0 ≤ i ∧ i < n) :
    store a r i v = .ok (Function.update a ⟨i.toNat, toNat_lt h⟩ v) := by
  simp [store, h]

theorem loadBlock_ok {base : Int} {k : Nat} (h0 : 0 ≤ base) (hk : base + k ≤ n) :
    loadBlock a r base k = .ok (List.ofFn fun j : Fin k => a ⟨(base + j).toNat, block_lt h0 hk j⟩) := by
  induction k generalizing base with
  | zero => rfl
  | succ k ih =>
    rw [loadBlock, load_ok a r (by omega), @ih (base + 1) (by omega) (by omega), List.ofFn_succ]
    show Except.ok (_ :: _) = Except.ok (_ :: _)
    congr 2
    · congr 1; ext; simp
    · congr 1; funext j; congr 1; ext; simp; omega

/-- A read that starts below the array faults at its first index. -/
theorem loadBlock_error_low {base : Int} {k : Nat} (h : base < 0) (hk : 0 < k) :
    loadBlock a r base k = .error (.outOfBounds r base) := by
  obtain ⟨k, rfl⟩ := Nat.exists_eq_add_of_lt hk
  simp [loadBlock, load_error a r (show ¬(0 ≤ base ∧ base < n) by omega)]

/-- A read that runs past the end of the array faults at index `n`. -/
theorem loadBlock_error_high {base : Int} {k : Nat} (h0 : 0 ≤ base) (hk : 0 < k)
    (h : n < base + k) :
    loadBlock a r base k = .error (.outOfBounds r (max base n)) := by
  induction k generalizing base with
  | zero => omega
  | succ k ih =>
    by_cases hb : base < n
    · rw [loadBlock, load_ok a r ⟨h0, hb⟩, ih (by omega) (by omega) (by omega)]
      rw [show max (base + 1) (n : Int) = max base n by omega]; rfl
    · rw [loadBlock, load_error a r (by omega), show max base (n : Int) = base by omega]; rfl

/-- A write inside the array puts `vs[j - base]` at each index `j ≥ base` it covers. -/
theorem storeBlock_ok {base : Int} {vs : List α} (h0 : 0 ≤ base) (hk : base + vs.length ≤ n) :
    ∃ a', storeBlock a r base vs = .ok a' ∧
      ∀ j : Fin n, a' j = if base ≤ j then vs.getD (j - base).toNat (a j) else a j := by
  induction vs generalizing a base with
  | nil => exact ⟨a, rfl, fun j => by split <;> simp⟩
  | cons v vs ih =>
    simp only [List.length_cons, Nat.cast_add, Nat.cast_one] at hk
    have hb0 : 0 ≤ base ∧ base < n := ⟨h0, by omega⟩
    obtain ⟨a', ha', hj⟩ := @ih (Function.update a ⟨base.toNat, toNat_lt hb0⟩ v) (base + 1)
      (by omega) (by omega)
    refine ⟨a', by rw [storeBlock, store_ok a r v hb0]; exact ha', fun j => ?_⟩
    rw [hj j]
    by_cases hb : base = j
    · subst hb
      rw [if_neg (by omega), if_pos le_rfl, sub_self, Int.toNat_zero, List.getD_cons_zero,
        Function.update_apply, if_pos (Fin.ext (by simp))]
    · have hne : j ≠ ⟨base.toNat, toNat_lt hb0⟩ := fun e => hb (by rw [e]; simp; omega)
      rw [Function.update_noteq hne]
      by_cases hlt : base ≤ (j : Int)
      · have : (j - base).toNat = (j - (base + 1)).toNat + 1 := by omega
        simp [show base + 1 ≤ (j : Int) by omega, hlt, this]
      · simp [hlt, show ¬ base + 1 ≤ (j : Int) by omega]

/-- A write that starts below the array faults at its first index. -/
theorem storeBlock_error_low {base : Int} {v : α} {vs : List α} (h : base < 0) :
    storeBlock a r base (v :: vs) = .error (.outOfBounds r base) := by
  simp [storeBlock, store_error a r v (show ¬(0 ≤ base ∧ base < n) by omega)]

end BlsHsm.CLib

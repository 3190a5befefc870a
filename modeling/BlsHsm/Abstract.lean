import BlsHsm.Keystore
import Mathlib.Data.List.OfFn

/-! The key store the secure partition implements, stated as a list: at most ten keys
in insertion order, each a secret and the 96 characters of its public-key slot, with
the scalar `sk` of the last insertion and the signing scalar `sk_sign`. `absStep` is
each entry call on it, `none` a call the store has no room or no key for.
`Refinement.lean` shows that the C globals implement it. -/

namespace BlsHsm.Abstract
open BlsHsm.Keystore

/-- One stored key: its secret and the hex of its public-key slot. -/
structure Entry where
  secret : Scalar
  hex : Fin 96 → Char

/-- The slot of `e` holds the key's 96 characters at `offset`. -/
def Entry.Matches (e : Entry) (key : Int → Char) (offset : Int) : Prop :=
  ∀ x : Fin 96, e.hex x = key (x + offset)

instance decidableEntryMatches (e : Entry) (key : Int → Char) (offset : Int) :
    Decidable (e.Matches key offset) :=
  inferInstanceAs (Decidable (∀ x : Fin 96, e.hex x = key (x + offset)))

/-- The slot of a key no `store_pk` has written: what the zeroed store holds. -/
def blank : Fin 96 → Char := fun _ => '\x00'

/-- At most ten keys in insertion order, `sk` and `sk_sign`. -/
@[ext] structure Store where
  entries : List Entry
  sk : Scalar
  skSign : Scalar
  length_le : entries.length ≤ 10

namespace Store

/-- The store at boot. -/
def empty : Store := ⟨[], Scalar.zero, Scalar.zero, Nat.zero_le _⟩

/-- Append a key with a blank slot and make it `sk`; a full store has no room. -/
def insert (a : Store) (v : Scalar) : Option Store :=
  if h : a.entries.length < 10 then
    some ⟨a.entries ++ [⟨v, blank⟩], v, a.skSign,
      (List.length_append _ _).trans_le (Nat.succ_le_of_lt h)⟩
  else none

/-- Give the last key the slot `hex`; an empty store has no last key. -/
def setLastHex (a : Store) (hex : Fin 96 → Char) : Option Store :=
  match a.entries.getLast? with
  | some e =>
    some ⟨a.entries.set (a.entries.length - 1) ⟨e.secret, hex⟩, a.sk, a.skSign,
      (List.length_set _ _ _).trans_le a.length_le⟩
  | none => none

/-- The first key whose slot matches becomes the signing key, answer `0`; no match
answers `-1`. -/
def lookup (a : Store) (key : Int → Char) (offset : Int) : Store × Int :=
  match a.entries.find? fun e => decide (e.Matches key offset) with
  | some e => ({ a with skSign := e.secret }, 0)
  | none => (a, -1)

/-- A secret already stored is refused with `-1`, a new one inserted with `0`. -/
def importKey (a : Store) (v : Scalar) : Option (Store × Int) :=
  if v ∈ a.entries.map Entry.secret then some (a, -1) else (a.insert v).map (·, 0)

/-- Drop every key; `sk` and `sk_sign` stay. -/
def reset (a : Store) : Store := ⟨[], a.sk, a.skSign, Nat.zero_le _⟩

/-- The slots of the keys in order. -/
def hexList (a : Store) : List Char := a.entries.flatMap fun e => List.ofFn e.hex

end Store

/-- One entry call on the abstract store. -/
def absStep (a : Store) : Call → Option (Store × Ret)
  | .getKeystoreSize => some (a, .int a.entries.length)
  | .storePk h => (a.setLastHex h).map (·, .unit)
  | .getkeys => some (a, .chars a.hexList)
  | .pkInKeystore h o => some ((a.lookup h o).1, .int (a.lookup h o).2)
  | .ikmSk g => (a.insert g).map (·, .unit)
  | .skToPk => some (a, .publicKeyOf a.sk)
  | .signPk => some (a, .signatureBy a.skSign)
  | .reset => some (a.reset, .unit)
  | .importSk v => (a.importKey v).map fun p => (p.1, .int p.2)

/-- A sequence of calls on the abstract store; the first refused call ends it. -/
def absRun : Store → List Call → Option Store
  | a, [] => some a
  | a, c :: cs => (absStep a c).bind fun p => absRun p.1 cs

/-- `sk` is the secret of the last key, when there is one. -/
def Store.SkLast (a : Store) : Prop := ∀ e ∈ a.entries.getLast?, a.sk = e.secret

/-- No two keys of `a` share a secret. -/
def Store.NodupSecrets (a : Store) : Prop := (a.entries.map Entry.secret).Nodup

namespace Store

/-! ## The operations -/

theorem insert_eq_none (a : Store) (v : Scalar) : a.insert v = none ↔ a.entries.length = 10 := by
  have := a.length_le
  unfold insert
  split <;> simp only [reduceCtorEq, true_iff, false_iff] <;> omega

theorem setLastHex_eq_none (a : Store) (hex : Fin 96 → Char) :
    a.setLastHex hex = none ↔ a.entries = [] := by
  unfold setLastHex
  split
  · next e he => simp only [reduceCtorEq, false_iff]; rintro h; simp [h] at he
  · next he => simpa using he

theorem importKey_eq_none (a : Store) (v : Scalar) :
    a.importKey v = none ↔ v ∉ a.entries.map Entry.secret ∧ a.entries.length = 10 := by
  unfold importKey
  split
  · next hv => simp only [reduceCtorEq, false_iff, not_and, not_not]; exact fun h => absurd hv h
  · next hv => simp only [Option.map_eq_none', insert_eq_none, hv, not_false_eq_true, true_and]

/-- What each operation does to the list of stored secrets. -/
theorem secrets_insert {a b : Store} {v : Scalar} (h : a.insert v = some b) :
    b.entries.map Entry.secret = a.entries.map Entry.secret ++ [v] := by
  unfold insert at h
  split at h
  · cases h; simp
  · cases h

theorem secrets_setLastHex {a b : Store} {hex : Fin 96 → Char} (h : a.setLastHex hex = some b) :
    b.entries.map Entry.secret = a.entries.map Entry.secret := by
  unfold setLastHex at h
  split at h
  · next e he =>
    cases h
    obtain ⟨ys, hys⟩ := List.getLast?_eq_some_iff.mp he
    simp [hys, List.set_append]
  · cases h

/-! ## The invariant -/

theorem skLast_insert {a a' : Store} {v : Scalar} (h : a.insert v = some a') : a'.SkLast := by
  unfold insert at h
  split at h
  · cases h
    intro e he
    rw [List.getLast?_concat, Option.mem_def, Option.some.injEq] at he
    rw [← he]
  · cases h

theorem skLast_setLastHex {a a' : Store} {hex : Fin 96 → Char} (ha : a.SkLast)
    (h : a.setLastHex hex = some a') : a'.SkLast := by
  unfold setLastHex at h
  split at h
  · next e he =>
    cases h
    have hl : 0 < a.entries.length := List.length_pos.mpr fun h0 => by simp [h0] at he
    intro e' he'
    rw [Option.mem_def, List.getLast?_eq_getElem?, List.length_set, List.getElem?_set,
      if_pos rfl, if_pos (by omega), Option.some.injEq] at he'
    rw [← he']
    exact ha e he
  · cases h

theorem skLast_lookup {a : Store} (ha : a.SkLast) (key : Int → Char) (o : Int) :
    (a.lookup key o).1.SkLast := by
  unfold lookup
  split <;> exact ha

theorem skLast_importKey {a a' : Store} {v : Scalar} {r : Int} (ha : a.SkLast)
    (h : a.importKey v = some (a', r)) : a'.SkLast := by
  unfold importKey at h
  split at h
  · cases h; exact ha
  · obtain ⟨b, hb, e⟩ := Option.map_eq_some'.mp h
    cases e
    exact skLast_insert hb

end Store

theorem skLast_absStep {a a' : Store} {c : Call} {r : Ret} (ha : a.SkLast)
    (h : absStep a c = some (a', r)) : a'.SkLast := by
  cases c <;> simp only [absStep, Option.map_eq_some', Option.some.injEq, Prod.mk.injEq] at h
  case getKeystoreSize | getkeys | skToPk | signPk => obtain ⟨rfl, -⟩ := h; exact ha
  case pkInKeystore key o => obtain ⟨rfl, -⟩ := h; exact Store.skLast_lookup ha key o
  case reset => obtain ⟨rfl, -⟩ := h; intro e he; cases he
  case storePk hex => obtain ⟨b, hb, rfl, -⟩ := h; exact Store.skLast_setLastHex ha hb
  case ikmSk g => obtain ⟨b, hb, rfl, -⟩ := h; exact Store.skLast_insert hb
  case importSk v => obtain ⟨⟨b, q⟩, hb, rfl, -⟩ := h; exact Store.skLast_importKey ha hb

/-- The refused calls: an insertion of a new secret into ten keys, and `store_pk` with no
key. -/
theorem absStep_eq_none (a : Store) (c : Call) :
    absStep a c = none ↔ ((∃ g, c = .ikmSk g) ∧ a.entries.length = 10) ∨
      (∃ v, c = .importSk v ∧ a.entries.length = 10 ∧ v ∉ a.entries.map Entry.secret) ∨
      ((∃ hex, c = .storePk hex) ∧ a.entries = []) := by
  cases c <;> simp only [absStep, Option.map_eq_none', Store.insert_eq_none,
    Store.setLastHex_eq_none, Store.importKey_eq_none, Call.ikmSk.injEq, Call.importSk.injEq,
    Call.storePk.injEq, reduceCtorEq, exists_eq', exists_eq_left', exists_false, exists_const,
    true_and, false_and, or_false, false_or, or_self, and_comm]

theorem skLast_absRun {a a' : Store} {cs : List Call} (ha : a.SkLast)
    (h : absRun a cs = some a') : a'.SkLast := by
  induction cs generalizing a with
  | nil => cases h; exact ha
  | cons c cs ih =>
    obtain ⟨⟨b, r⟩, hb, h⟩ := Option.bind_eq_some.mp h
    exact ih (skLast_absStep ha hb) h

/-! ## Reaching a store

`import_sk` takes any 32 bytes, so with `store_pk`, `pk_in_keystore` and `reset` it
reaches every store of distinct secrets; `ikm_sk` is not needed. -/

theorem absRun_append (a : Store) (xs ys : List Call) :
    absRun a (xs ++ ys) = (absRun a xs).bind fun b => absRun b ys := by
  induction xs generalizing a with
  | nil => rfl
  | cons c xs ih =>
    simp only [List.cons_append, absRun]
    cases absStep a c with
    | none => rfl
    | some p => exact ih p.1

/-- Importing each new key and storing its hex appends the keys. -/
theorem absRun_fill (b : Store) (es : List Entry) (h : b.entries.length + es.length ≤ 10)
    (hd : ((b.entries ++ es).map Entry.secret).Nodup) :
    ∃ b', absRun b (es.flatMap fun e => [.importSk e.secret, .storePk e.hex]) = some b' ∧
      b'.entries = b.entries ++ es ∧ b'.sk = (es.getLast?.map Entry.secret).getD b.sk ∧
      b'.skSign = b.skSign := by
  induction es generalizing b with
  | nil => exact ⟨b, rfl, by simp, rfl, rfl⟩
  | cons e es ih =>
    have hlt : b.entries.length < 10 := by rw [List.length_cons] at h; omega
    have hv : e.secret ∉ b.entries.map Entry.secret := by
      simp only [List.map_append, List.map_cons, List.nodup_append, List.nodup_cons] at hd
      exact fun hm => hd.2.2 hm (List.mem_cons_self _ _)
    let b₂ : Store := ⟨b.entries ++ [e], e.secret, b.skSign,
      (List.length_append _ _).trans_le (Nat.succ_le_of_lt hlt)⟩
    have hb₂ : absRun b [.importSk e.secret, .storePk e.hex] = some b₂ := by
      simp [absRun, absStep, Store.importKey, hv, Store.insert, hlt, Store.setLastHex, b₂]
    obtain ⟨b', h', he, hs, hss⟩ := ih b₂ (by simp [b₂] at h ⊢; omega) (by simpa [b₂] using hd)
    refine ⟨b', ?_, by simp [he, b₂], ?_, hss⟩
    · rw [List.flatMap_cons, absRun_append, hb₂]
      exact h'
    · rw [hs, List.getLast?_cons]
      cases es.getLast? <;> rfl

/-- Every store of distinct secrets whose `sk` is the secret of its last key is reached
from the empty store without `ikm_sk`: `sk_sign` is armed from an imported key, and
`sk` is imported again, before the keys are imported in order. -/
theorem absRun_reaches (a : Store) (ha : a.SkLast) (hd : a.NodupSecrets) :
    ∃ cs, (∀ c ∈ cs, ∀ g, c ≠ .ikmSk g) ∧ absRun Store.empty cs = some a := by
  let arm : List Call :=
    [.importSk a.skSign, .pkInKeystore (fun _ => '\x00') 0, .reset, .importSk a.sk, .reset]
  let b : Store := ⟨[], a.sk, a.skSign, Nat.zero_le _⟩
  have hb : absRun Store.empty arm = some b := by
    simp [arm, absRun, absStep, Store.importKey, Store.insert, Store.lookup, Store.reset,
      Store.empty, Entry.Matches, blank, b]
  obtain ⟨b', h', he, hs, hss⟩ := absRun_fill b a.entries (by simpa [b] using a.length_le) hd
  refine ⟨arm ++ a.entries.flatMap fun e => [.importSk e.secret, .storePk e.hex],
    fun c hc g => ?_, ?_⟩
  · simp only [arm, List.mem_append, List.mem_cons, List.mem_flatMap, List.not_mem_nil,
      or_false] at hc
    rcases hc with (rfl | rfl | rfl | rfl | rfl) | ⟨e, -, rfl | rfl⟩ <;> exact nofun
  rw [absRun_append, hb, Option.some_bind, h']
  congr 1
  ext1
  · simpa [b] using he
  · rw [hs]
    cases hl : a.entries.getLast? with
    | none => rfl
    | some e => exact (ha e hl).symm
  · exact hss

end BlsHsm.Abstract

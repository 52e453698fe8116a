import Mathlib.Logic.Function.Basic

/-!
# Transactions that lock the rows they write

A table `committed : K → V`. A transaction `Tx` has done some actions, each on the row of its key,
and keeps the rows it has written to itself until it commits; nobody else writes such a row
meanwhile (`Free`). `Serial` is the invariant: every row is what the actions of the committed
transactions make of it, in the order of their commits, and what a transaction sees of a row it may
write is what its own actions make of that.
-/
namespace OpenBrain.Core.RowLocks
open List

variable {P K V A : Type} [DecidableEq K]

/-- An open transaction: its actions, in order, and the rows it has written. -/
structure Tx (K V A : Type) where
  done : List A
  writes : K → Option V

namespace Tx

def empty : Tx K V A := ⟨[], fun _ => none⟩

/-- What a transaction sees of a row. -/
def view (tx : Tx K V A) (committed : K → V) (k : K) : V := (tx.writes k).getD (committed k)

/-- One more action. -/
def write (key : A → K) (apply : V → A → V) (tx : Tx K V A) (committed : K → V) (a : A) :
    Tx K V A where
  done := tx.done ++ [a]
  writes := Function.update tx.writes (key a) (some (apply (tx.view committed (key a)) a))

@[simp] theorem write_done (key : A → K) (apply : V → A → V) (tx : Tx K V A)
    (committed : K → V) (a : A) : (tx.write key apply committed a).done = tx.done ++ [a] := rfl

theorem write_writes (key : A → K) (apply : V → A → V) (tx : Tx K V A) (committed : K → V)
    (a : A) : (tx.write key apply committed a).writes =
      Function.update tx.writes (key a) (some (apply (tx.view committed (key a)) a)) := rfl

end Tx

/-- No transaction but `p` has written the row. -/
def Free (txs : P → Option (Tx K V A)) (p : P) (k : K) : Prop :=
  ∀ q, q ≠ p → ∀ tx, txs q = some tx → tx.writes k = none

section Locked
variable (key : A → K)

def onRow (as : List A) (k : K) : List A := as.filter fun a => decide (key a = k)

/-- A transaction has acted only on rows it has written, and no row is written by two. -/
structure Locked (txs : P → Option (Tx K V A)) : Prop where
  untouched : ∀ p tx, txs p = some tx → ∀ k, tx.writes k = none → onRow key tx.done k = []
  alone : ∀ p q tx tx', txs p = some tx → txs q = some tx' → p ≠ q →
    ∀ k, tx.writes k = none ∨ tx'.writes k = none

variable {key} {apply : V → A → V} {committed : K → V} {txs : P → Option (Tx K V A)}

theorem onRow_append (as bs : List A) (k : K) :
    onRow key (as ++ bs) k = onRow key as k ++ onRow key bs k := filter_append ..

theorem onRow_self (a : A) : onRow key [a] (key a) = [a] := by simp [onRow]

theorem onRow_other {a : A} {k : K} (h : key a ≠ k) : onRow key [a] k = [] := by simp [onRow, h]

namespace Locked

theorem init (hnone : ∀ p, txs p = none) : Locked key txs where
  untouched p _ h := nomatch (hnone p).symm.trans h
  alone p _ _ _ h := nomatch (hnone p).symm.trans h

variable [DecidableEq P] {p : P}

theorem begin (L : Locked key txs) : Locked key (Function.update txs p (some Tx.empty)) where
  untouched q tx h k hk := by
    rw [Function.update_apply] at h
    split at h
    · cases h
      rfl
    · exact L.untouched q tx h k hk
  alone q r tx tx' hq hr hne k := by
    rw [Function.update_apply] at hq hr
    split at hq
    · cases hq
      exact .inl rfl
    split at hr
    · cases hr
      exact .inr rfl
    · exact L.alone q r tx tx' hq hr hne k

/-- An action on a row that nobody else has written. -/
theorem write (L : Locked key txs) {tx : Tx K V A} {a : A} (htx : txs p = some tx)
    (hfree : Free txs p (key a)) :
    Locked key (Function.update txs p (some (tx.write key apply committed a))) where
  untouched q tx' h k hk := by
    rw [Function.update_apply] at h
    split at h
    · cases h
      rw [Tx.write_writes, Function.update_apply] at hk
      split at hk
      · cases hk
      · rename_i hne
        rw [Tx.write_done, onRow_append, L.untouched p tx htx k hk, onRow_other (Ne.symm hne)]
        rfl
    · exact L.untouched q tx' h k hk
  alone q r tx₁ tx₂ hq hr hne k := by
    rw [Function.update_apply] at hq hr
    split at hq
    · rename_i hqp
      rw [if_neg (fun hrp => hne (hqp.trans hrp.symm))] at hr
      cases hq
      by_cases hk : k = key a
      · rw [hk]
        exact .inr (hfree r (fun hrp => hne (hqp.trans hrp.symm)) tx₂ hr)
      · rw [Tx.write_writes, Function.update_of_ne hk]
        exact L.alone p r tx tx₂ htx hr (hqp ▸ hne) k
    · split at hr
      · cases hr
        rename_i hqp hrp
        by_cases hk : k = key a
        · rw [hk]
          exact .inl (hfree q hqp tx₁ hq)
        · rw [Tx.write_writes, Function.update_of_ne hk]
          exact L.alone q p tx₁ tx hq htx hqp k
      · exact L.alone q r tx₁ tx₂ hq hr hne k

/-- A transaction that ends. -/
theorem drop (L : Locked key txs) : Locked key (Function.update txs p none) where
  untouched q tx h k := by
    rw [Function.update_apply] at h
    split at h
    · cases h
    · exact L.untouched q tx h k
  alone q r tx tx' hq hr := by
    rw [Function.update_apply] at hq hr
    split at hq
    · cases hq
    split at hr
    · cases hr
    · exact L.alone q r tx tx' hq hr

omit [DecidableEq P] in
/-- A commit leaves alone what the other transactions have written. -/
theorem view_commit (L : Locked key txs) {tx tx' : Tx K V A} {q : P} (htx : txs p = some tx)
    (hq : txs q = some tx') (hne : q ≠ p) {k : K} (hk : tx'.writes k ≠ none) :
    tx.view committed k = committed k := by
  rcases L.alone p q tx tx' htx hq (Ne.symm hne) k with h | h
  · rw [Tx.view, h]
    rfl
  · exact absurd h hk

end Locked

end Locked

section Serial
variable (key : A → K) (apply : V → A → V)

def rowAfter (as : List A) (k : K) (v : V) : V := (onRow key as k).foldl apply v

structure Serial (fresh : V) (committed : K → V) (log : List A) (txs : P → Option (Tx K V A)) :
    Prop where
  rows : ∀ k, committed k = rowAfter key apply log k fresh
  own : ∀ p tx, txs p = some tx → ∀ k,
    tx.view committed k = rowAfter key apply tx.done k (committed k)
  untouched : ∀ p tx, txs p = some tx → ∀ k, tx.writes k = none → onRow key tx.done k = []
  alone : ∀ p q tx tx', txs p = some tx → txs q = some tx' → p ≠ q →
    ∀ k, tx.writes k = none ∨ tx'.writes k = none

variable {key apply} {fresh : V} {committed : K → V} {log : List A} {txs : P → Option (Tx K V A)}

theorem rowAfter_append (as bs : List A) (k : K) (v : V) :
    rowAfter key apply (as ++ bs) k v =
      rowAfter key apply bs k (rowAfter key apply as k v) := by
  rw [rowAfter, onRow_append, foldl_append, rowAfter, rowAfter]

theorem Serial.locked (S : Serial key apply fresh committed log txs) : Locked key txs :=
  ⟨S.untouched, S.alone⟩

theorem Serial.init (hfresh : ∀ k, committed k = fresh) (hnone : ∀ p, txs p = none) :
    Serial key apply fresh committed [] txs where
  rows := hfresh
  own p _ h := nomatch (hnone p).symm.trans h
  untouched p _ h := nomatch (hnone p).symm.trans h
  alone p _ _ _ h := nomatch (hnone p).symm.trans h

/-- What a transaction sees of a row is what all the actions before make of it. -/
theorem Serial.view_eq (S : Serial key apply fresh committed log txs) {p : P} {tx : Tx K V A}
    (h : txs p = some tx) (k : K) :
    tx.view committed k = rowAfter key apply (log ++ tx.done) k fresh := by
  rw [S.own p tx h, S.rows, rowAfter_append]

section Steps
variable [DecidableEq P] {p : P}

theorem Serial.begin (S : Serial key apply fresh committed log txs) :
    Serial key apply fresh committed log (Function.update txs p (some Tx.empty)) where
  rows := S.rows
  own q tx h k := by
    rw [Function.update_apply] at h
    split at h
    · cases h
      rfl
    · exact S.own q tx h k
  untouched := S.locked.begin.untouched
  alone := S.locked.begin.alone

/-- An action on a row that nobody else has written. -/
theorem Serial.write (S : Serial key apply fresh committed log txs) {tx : Tx K V A} {a : A}
    (htx : txs p = some tx) (hfree : Free txs p (key a)) :
    Serial key apply fresh committed log
      (Function.update txs p (some (tx.write key apply committed a))) where
  rows := S.rows
  own q tx' h k := by
    rw [Function.update_apply] at h
    split at h
    · cases h
      have hown := S.own p tx htx k
      rw [Tx.view, Tx.write_writes, Tx.write_done, rowAfter_append, ← hown,
        Function.update_apply]
      split
      · rename_i hk
        rw [hk, Option.getD_some, rowAfter, onRow_self, foldl_cons, foldl_nil]
      · rename_i hk
        rw [rowAfter, onRow_other (Ne.symm hk)]
        rfl
    · exact S.own q tx' h k
  untouched := (S.locked.write htx hfree).untouched
  alone := (S.locked.write htx hfree).alone

theorem Serial.abort (S : Serial key apply fresh committed log txs) :
    Serial key apply fresh committed log (Function.update txs p none) where
  rows := S.rows
  own q tx h k := by
    rw [Function.update_apply] at h
    split at h
    · cases h
    · exact S.own q tx h k
  untouched := S.locked.drop.untouched
  alone := S.locked.drop.alone

theorem Serial.commit (S : Serial key apply fresh committed log txs) {tx : Tx K V A}
    (htx : txs p = some tx) :
    Serial key apply fresh (tx.view committed) (log ++ tx.done)
      (Function.update txs p none) where
  rows k := S.view_eq htx k
  own q tx' h k := by
    rw [Function.update_apply] at h
    split at h
    · cases h
    · rename_i hne
      cases hk : tx'.writes k with
      | none =>
        rw [Tx.view, hk, rowAfter, S.untouched q tx' h k hk]
        rfl
      | some v =>
        have hsame : tx.view committed k = committed k :=
          S.locked.view_commit htx h hne (by rw [hk]; exact Option.some_ne_none v)
        have hown := S.own q tx' h k
        rw [Tx.view, hk] at hown ⊢
        rw [hsame]
        exact hown
  untouched := S.locked.drop.untouched
  alone := S.locked.drop.alone

omit [DecidableEq P] in
theorem Serial.onRow_done (S : Serial key apply fresh committed log txs) {tx tx' : Tx K V A}
    {q : P} (htx : txs p = some tx) (hq : txs q = some tx') (hne : p ≠ q) {a : A}
    (ha : a ∈ tx.done) : onRow key tx'.done (key a) = [] := by
  rcases S.alone p q tx tx' htx hq hne (key a) with h | h
  · have hmem : a ∈ onRow key tx.done (key a) := mem_filter.mpr ⟨ha, by simp⟩
    rw [S.untouched p tx htx _ h] at hmem
    cases hmem
  · exact S.untouched q tx' hq _ h

end Steps

end Serial

/-! ## Actions that are not functions -/

section Linked
variable (key : A → K) (R : V → A → V → Prop)

/-- The actions lead a row from `v` to `w`, each from the row the one before it left. -/
def Leads : V → List A → V → Prop
  | v, [], w => v = w
  | v, a :: as, w => ∃ u, R v a u ∧ Leads u as w

variable {R} in
theorem leads_append {v w : V} {as bs : List A} :
    Leads R v (as ++ bs) w ↔ ∃ u, Leads R v as u ∧ Leads R u bs w := by
  induction as generalizing v with
  | nil => simp [Leads]
  | cons a as ih =>
    simp only [cons_append, Leads, ih]
    constructor
    · rintro ⟨u, ha, x, has, hbs⟩
      exact ⟨x, ⟨u, ha, has⟩, hbs⟩
    · rintro ⟨x, ⟨u, ha, has⟩, hbs⟩
      exact ⟨u, ha, x, has, hbs⟩

structure Linked (start committed : K → V) (log : List A) (txs : P → Option (Tx K V A)) : Prop where
  rows : ∀ k, Leads R (start k) (onRow key log k) (committed k)
  own : ∀ p tx, txs p = some tx → ∀ k,
    Leads R (committed k) (onRow key tx.done k) (tx.view committed k)
  locked : Locked key txs

variable {key R} {start committed : K → V} {log : List A} {txs : P → Option (Tx K V A)}

namespace Linked

theorem init (hnone : ∀ p, txs p = none) : Linked key R start start [] txs where
  rows _ := rfl
  own p _ h := nomatch (hnone p).symm.trans h
  locked := .init hnone

variable [DecidableEq P] {p : P}

theorem begin (L : Linked key R start committed log txs) :
    Linked key R start committed log (Function.update txs p (some Tx.empty)) where
  rows := L.rows
  own q tx h k := by
    rw [Function.update_apply] at h
    split at h
    · cases h
      rfl
    · exact L.own q tx h k
  locked := L.locked.begin

/-- An action on a row that nobody else has written, from what the transaction sees of it. -/
theorem write (L : Linked key R start committed log txs) {apply : V → A → V} {tx : Tx K V A} {a : A}
    (htx : txs p = some tx) (hfree : Free txs p (key a))
    (ha : R (tx.view committed (key a)) a (apply (tx.view committed (key a)) a)) :
    Linked key R start committed log
      (Function.update txs p (some (tx.write key apply committed a))) where
  rows := L.rows
  own q tx' h k := by
    rw [Function.update_apply] at h
    split at h
    · cases h
      have hown := L.own p tx htx k
      rw [Tx.write_done, onRow_append, leads_append]
      refine ⟨_, hown, ?_⟩
      show Leads R _ _ (((tx.write key apply committed a).writes k).getD (committed k))
      rw [Tx.write_writes, Function.update_apply]
      split
      · rename_i hk
        subst hk
        rw [onRow_self]
        exact ⟨_, ha, rfl⟩
      · rename_i hk
        rw [onRow_other (Ne.symm hk)]
        rfl
    · exact L.own q tx' h k
  locked := L.locked.write htx hfree

theorem abort (L : Linked key R start committed log txs) :
    Linked key R start committed log (Function.update txs p none) where
  rows := L.rows
  own q tx h k := by
    rw [Function.update_apply] at h
    split at h
    · cases h
    · exact L.own q tx h k
  locked := L.locked.drop

theorem commit (L : Linked key R start committed log txs) {tx : Tx K V A} (htx : txs p = some tx) :
    Linked key R start (tx.view committed) (log ++ tx.done) (Function.update txs p none) where
  rows k := by
    rw [onRow_append, leads_append]
    exact ⟨committed k, L.rows k, L.own p tx htx k⟩
  own q tx' h k := by
    rw [Function.update_apply] at h
    split at h
    · cases h
    · rename_i hne
      cases hk : tx'.writes k with
      | none =>
        have hsees : ∀ c : K → V, tx'.view c k = c k := fun c => by
          rw [Tx.view, hk, Option.getD_none]
        rw [hsees, L.locked.untouched q tx' h k hk]
        rfl
      | some v =>
        have hsame : tx.view committed k = committed k :=
          L.locked.view_commit htx h hne (by rw [hk]; exact Option.some_ne_none v)
        have hkeeps : ∀ c : K → V, tx'.view c k = v := fun c => by
          rw [Tx.view, hk, Option.getD_some]
        have hown := L.own q tx' h k
        rw [hkeeps] at hown ⊢
        rw [hsame]
        exact hown
  locked := L.locked.drop

end Linked

end Linked

/-! ## Sums over actions -/

/-- The sum of what each action counts for, on the row that the actions before it leave. -/
def total (key : A → K) (apply : V → A → V) (fresh : V) (f : V → A → Nat) :
    List A → List A → Nat
  | _, [] => 0
  | before, a :: as =>
    f (rowAfter key apply before (key a) fresh) a + total key apply fresh f (before ++ [a]) as

section Total
variable {key : A → K} {apply : V → A → V} {fresh : V} {f g : V → A → Nat}

theorem total_append_singleton (before as : List A) (a : A) :
    total key apply fresh f before (as ++ [a]) = total key apply fresh f before as +
      f (rowAfter key apply (before ++ as) (key a) fresh) a := by
  induction as generalizing before with
  | nil => simp [total]
  | cons b as ih =>
    rw [cons_append, total, ih, total, Nat.add_assoc, append_assoc]
    rfl

theorem total_congr {before before' : List A} (as : List A)
    (h : ∀ a ∈ as, onRow key before (key a) = onRow key before' (key a)) :
    total key apply fresh f before as = total key apply fresh f before' as := by
  induction as generalizing before before' with
  | nil => rfl
  | cons a as ih =>
    rw [total, total, rowAfter, h a mem_cons_self]
    congr 1
    refine ih fun b hb => ?_
    rw [onRow_append, onRow_append, h b (mem_cons_of_mem _ hb)]

/-- Two sums agree where one never counts more, exactly if they agree at every action. -/
theorem total_eq_iff (hle : ∀ before a, f (rowAfter key apply before (key a) fresh) a ≤
      g (rowAfter key apply before (key a) fresh) a) (before as : List A) :
    total key apply fresh f before as ≤ total key apply fresh g before as ∧
      (total key apply fresh f before as = total key apply fresh g before as ↔
        ∀ front a back, as = front ++ a :: back →
          f (rowAfter key apply (before ++ front) (key a) fresh) a =
            g (rowAfter key apply (before ++ front) (key a) fresh) a) := by
  induction as generalizing before with
  | nil => simp [total]
  | cons a as ih =>
    obtain ⟨hle', hiff⟩ := ih (before ++ [a])
    have ha := hle before a
    rw [total, total]
    refine ⟨by omega, fun heq => ?_, fun hall => ?_⟩
    · rintro (_ | ⟨b, front⟩) c back hsplit
      · cases hsplit
        rw [append_nil]
        omega
      · cases hsplit
        have hrest := hiff.mp (by omega) front c back rfl
        rwa [append_assoc] at hrest
    · have hfirst := hall [] a as rfl
      rw [append_nil] at hfirst
      have hrest := hiff.mpr fun front c back hsplit => by
        have hc := hall (a :: front) c back (by rw [hsplit]; rfl)
        rwa [append_assoc]
      omega

end Total

end OpenBrain.Core.RowLocks

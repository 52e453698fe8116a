import Mathlib.Data.List.Nodup
import OpenBrain.Core.LTS
import OpenBrain.Core.RowLocks
import OpenBrain.Core.Utf16

/-!
# The tier history (`db/tiering-repository.ts`, `tools/tier-mutations.ts`,
`db/dream-rem-repository.ts`)

Three writers change the tier of an entry and append a row to `tier_moves`, in one statement: its
common table expressions read the snapshot the statement began with, and its UPDATE takes the rows
one by one, each when no other transaction holds it, in the version then committed (READ COMMITTED).
A transaction keeps what it has written to itself until it commits; `World.moves` are the rows of
`tier_moves` in the order of the commits.

`found` is what an update finds in its row. The rows always lead from one tier to the next by what
the updates found, so the history is a chain exactly when each row names it (`tier_history_iff`).
-/
namespace OpenBrain.Server.Tiering
open OpenBrain.Core OpenBrain.Core.RowLocks List

/-! ## Entries and moves -/

inductive ResourceTable where
  | thoughts | decisions | relationships | projects | sessions
  deriving DecidableEq

inductive Tier where
  | hot | warm | cold
  deriving DecidableEq

abbrev EntryRef := ResourceTable × Str

/-- The columns of an entry that the writers read or write. -/
structure Row where
  tier : Option Tier
  ns : Str
  archived : Bool
  tags : List Str
  updated_at : Nat

/-- mirrors db/migrations/050_tier_moves.sql:23-58 -/
structure TierMove where
  entry : EntryRef
  from_tier : Option Tier
  to_tier : Tier
  cause : Str
  moved_at : Nat

/-- A move, and the tier its update found in the row, which is no column of the table. -/
structure Logged extends TierMove where
  found : Option Tier

/-- What an update makes of its row; the trigger of the table sets `updated_at`. -/
def applyMove (row : Option Row) (m : Logged) : Option Row :=
  row.map fun r => { r with tier := some m.to_tier, updated_at := m.moved_at }

def tierOf (row : Option Row) : Option Tier := row.bind Row.tier

/-! ## Statements -/

/-- mirrors db/tier-moves.ts:31-37 -/
def SET_TIER_CAUSE : Str := units "set-tier"
def BULK_SET_TIER_CAUSE : Str := units "bulk-set-tier"
def REM_REWARM_CAUSE : Str := units "dream-rem-rewarm"

/-- The statements that move tiers; `namespaces` are those of the caller's write predicate. -/
inductive Statement where
  | setTierWithHistory (entry : EntryRef) (tier : Tier) (namespaces : Option (List Str)) (cause : Str)
  | warmProjectCluster (repo : Str) (rowLimit : Nat)

inductive Call where
  | set_tier (entry : EntryRef) (tier : Tier) (namespaces : Option (List Str))
  | bulk_set_tier (entries : List (EntryRef × Tier)) (namespaces : Option (List Str))
  | rewarm (repo : Str) (rowLimit : Nat)

/-- What a call runs in its one transaction.
mirrors tier-mutations.ts:203-207, 239-282, 446-453, dream-rem-repository.ts:99-122 -/
def Call.statements : Call → List Statement
  | .set_tier entry tier ns => [.setTierWithHistory entry tier ns SET_TIER_CAUSE]
  | .bulk_set_tier entries ns =>
    entries.map fun e => .setTierWithHistory e.1 e.2 ns BULK_SET_TIER_CAUSE
  | .rewarm repo rowLimit => [.warmProjectCluster repo rowLimit]

def Statement.tier : Statement → Tier
  | .setTierWithHistory _ tier _ _ => tier
  | .warmProjectCluster _ _ => .hot

def Statement.cause : Statement → Str
  | .setTierWithHistory _ _ _ cause => cause
  | .warmProjectCluster _ _ => REM_REWARM_CAUSE

/-- mirrors auth/namespace-policy.ts:38-50 -/
def permits (namespaces : Option (List Str)) (r : Row) : Bool :=
  match namespaces with
  | none => true
  | some ns => ns.contains r.ns

/-- Whether the UPDATE takes a version of a row that its statement has selected: a set statement
tests `archived_at` and the namespace, the re-warming only that the row was picked.
mirrors tiering-repository.ts:142-143, dream-rem-repository.ts:109-111 -/
def Statement.takes : Statement → Row → Bool
  | .setTierWithHistory _ _ ns _, r => !r.archived && permits ns r
  | .warmProjectCluster _ _, _ => true

/-- `tags @> ARRAY[repo] AND tier IS DISTINCT FROM 'hot' AND archived_at IS NULL` -/
def warmable (repo : Str) (r : Row) : Bool :=
  r.tags.contains repo && decide (r.tier ≠ some .hot) && !r.archived

/-- `(tier = 'cold') DESC`, a tier of NULL first. -/
def coldRank : Option Tier → Nat
  | none => 0
  | some .cold => 1
  | some _ => 2

/-- `ORDER BY (tier = 'cold') DESC, updated_at DESC` -/
def coldestFirst (a b : Row) : Prop :=
  coldRank a.tier < coldRank b.tier ∨
    coldRank a.tier = coldRank b.tier ∧ b.updated_at ≤ a.updated_at

/-- The rows `picked`: the first `rowLimit` of the rows to warm, in some order that agrees with
`coldestFirst`.
mirrors dream-rem-repository.ts:101-108 -/
def Picked (repo : Str) (rowLimit : Nat) (snapshot : EntryRef → Option Row) (ids : List Str) : Prop :=
  ∃ rows : List (Str × Row),
    (rows.map Prod.fst).Nodup ∧
    (∀ id r, (id, r) ∈ rows ↔ snapshot (.thoughts, id) = some r ∧ warmable repo r = true) ∧
    rows.Pairwise (fun a b => coldestFirst a.2 b.2) ∧
    ids = (rows.take rowLimit).map Prod.fst

/-- The rows a statement selects from its snapshot, in the order in which its UPDATE takes them. -/
def Selects (snapshot : EntryRef → Option Row) : Statement → List EntryRef → Prop
  | st@(.setTierWithHistory entry _ _ _), targets =>
    targets = if (snapshot entry).any st.takes then [entry] else []
  | .warmProjectCluster repo rowLimit, targets =>
    ∃ ids, Picked repo rowLimit snapshot ids ∧ targets.Perm (ids.map fun id => (.thoughts, id))

theorem Selects.nodup {snapshot : EntryRef → Option Row} {st : Statement} {targets : List EntryRef}
    (h : Selects snapshot st targets) : targets.Nodup := by
  cases st with
  | setTierWithHistory entry tier ns cause =>
    subst h
    split
    · exact nodup_singleton _
    · exact nodup_nil
  | warmProjectCluster repo rowLimit =>
    obtain ⟨ids, ⟨rows, hnodup, -, -, rfl⟩, hperm⟩ := h
    refine hperm.nodup_iff.mpr (List.Nodup.map (fun a b hab => (Prod.mk.inj hab).2) ?_)
    rw [map_take]
    exact hnodup.sublist (take_sublist _ _)

/-! ## Transactions -/

/-- A statement in progress, with the rows it still has to take. -/
structure Running where
  statement : Statement
  snapshot : EntryRef → Option Row
  targets : List EntryRef

structure Session where
  pending : List Statement
  running : Option Running

variable {P : Type}

structure World (P : Type) where
  committed : EntryRef → Option Row
  moves : List Logged
  txs : P → Option (Tx EntryRef (Option Row) Logged)
  sessions : P → Option Session

/-- The row of `tier_moves` for an update that finds `row`. -/
def moveOf (running : Running) (entry : EntryRef) (row : Option Row) (now : Nat) : Logged where
  entry
  from_tier := tierOf (running.snapshot entry)
  to_tier := running.statement.tier
  cause := running.statement.cause
  moved_at := now
  found := tierOf row

inductive Label (P : Type) where
  | call (p : P) (c : Call)
  | begin (p : P)
  | update (p : P) (now : Nat)
  | skip (p : P)
  | finish (p : P)
  | commit (p : P)
  | rollback (p : P)

section
variable [DecidableEq P]

inductive Step : World P → Label P → World P → Prop
  | call {w : World P} {p : P} (c : Call) (hs : w.sessions p = none) :
      Step w (.call p c)
        { w with
          txs := Function.update w.txs p (some Tx.empty)
          sessions := Function.update w.sessions p (some ⟨c.statements, none⟩) }
  | begin {w : World P} {p : P} {tx : Tx EntryRef (Option Row) Logged} {st : Statement}
      {rest : List Statement} (targets : List EntryRef) (htx : w.txs p = some tx)
      (hs : w.sessions p = some ⟨st :: rest, none⟩)
      (hselects : Selects (tx.view w.committed) st targets) :
      Step w (.begin p)
        { w with
          sessions := Function.update w.sessions p
            (some ⟨rest, some ⟨st, tx.view w.committed, targets⟩⟩) }
  | update {w : World P} {p : P} {tx : Tx EntryRef (Option Row) Logged} {st : Statement}
      {rest : List Statement} {snapshot : EntryRef → Option Row} {entry : EntryRef}
      {targets : List EntryRef} {r : Row} (now : Nat) (htx : w.txs p = some tx)
      (hs : w.sessions p = some ⟨rest, some ⟨st, snapshot, entry :: targets⟩⟩)
      (hfree : Free w.txs p entry) (hrow : tx.view w.committed entry = some r)
      (htakes : st.takes r = true) :
      Step w (.update p now)
        { w with
          txs := Function.update w.txs p (some (tx.write (fun m => m.entry) applyMove w.committed
            (moveOf ⟨st, snapshot, entry :: targets⟩ entry (some r) now)))
          sessions := Function.update w.sessions p (some ⟨rest, some ⟨st, snapshot, targets⟩⟩) }
  | skip {w : World P} {p : P} {tx : Tx EntryRef (Option Row) Logged} {st : Statement}
      {rest : List Statement} {snapshot : EntryRef → Option Row} {entry : EntryRef}
      {targets : List EntryRef} (htx : w.txs p = some tx)
      (hs : w.sessions p = some ⟨rest, some ⟨st, snapshot, entry :: targets⟩⟩)
      (hfree : Free w.txs p entry)
      (htakes : (tx.view w.committed entry).any st.takes = false) :
      Step w (.skip p)
        { w with sessions := Function.update w.sessions p (some ⟨rest, some ⟨st, snapshot, targets⟩⟩) }
  | finish {w : World P} {p : P} {st : Statement} {rest : List Statement}
      {snapshot : EntryRef → Option Row} (hs : w.sessions p = some ⟨rest, some ⟨st, snapshot, []⟩⟩) :
      Step w (.finish p) { w with sessions := Function.update w.sessions p (some ⟨rest, none⟩) }
  | commit {w : World P} {p : P} {tx : Tx EntryRef (Option Row) Logged} (htx : w.txs p = some tx)
      (hs : w.sessions p = some ⟨[], none⟩) :
      Step w (.commit p)
        { committed := tx.view w.committed
          moves := w.moves ++ tx.done
          txs := Function.update w.txs p none
          sessions := Function.update w.sessions p none }
  | rollback {w : World P} {p : P} {s : Session} (hs : w.sessions p = some s) :
      Step w (.rollback p)
        { w with
          txs := Function.update w.txs p none
          sessions := Function.update w.sessions p none }

/-- The runs over the entries `start`. -/
def tiering (P : Type) [DecidableEq P] (start : EntryRef → Option Row) : LTS (World P) (Label P) where
  init w := w = ⟨start, [], fun _ => none, fun _ => none⟩
  step := Step

end

/-! ## The history of an entry -/

def Chain : Option Tier → List Logged → Option Tier → Prop
  | v, [], w => v = w
  | v, m :: ms, w => m.from_tier = v ∧ Chain (some m.to_tier) ms w

/-- The rows of `tier_moves` of an entry. -/
def history (w : World P) (entry : EntryRef) : List Logged :=
  onRow (fun m : Logged => m.entry) w.moves entry

def Chained (start : EntryRef → Option Row) (w : World P) : Prop :=
  ∀ entry, Chain (tierOf (start entry)) (history w entry) (tierOf (w.committed entry))

def Moves (v : Option Row) (m : Logged) (v' : Option Row) : Prop :=
  ∃ r, v = some r ∧ m.found = r.tier ∧
    v' = some { r with tier := some m.to_tier, updated_at := m.moved_at }

theorem chain_iff {v w : Option Row} {ms : List Logged} (h : Leads Moves v ms w) :
    Chain (tierOf v) ms (tierOf w) ↔ ∀ m ∈ ms, m.from_tier = m.found := by
  induction ms generalizing v with
  | nil =>
    obtain rfl : v = w := h
    simp [Chain]
  | cons m ms ih =>
    obtain ⟨u, ⟨r, rfl, hfound, rfl⟩, hms⟩ := h
    have hrest := ih hms
    rw [forall_mem_cons, Chain, ← hrest, hfound]
    rfl

/-! ## Runs -/

/-- The rows a statement still has to take differ, and those its transaction has written are in its
snapshot as it wrote them. -/
def Held (tx : Tx EntryRef (Option Row) Logged) (s : Session) : Prop :=
  ∀ running, s.running = some running → running.targets.Nodup ∧
    ∀ entry ∈ running.targets, ∀ row, tx.writes entry = some row → running.snapshot entry = row

structure Inv (start : EntryRef → Option Row) (w : World P) : Prop where
  linked : Linked (fun m : Logged => m.entry) Moves start w.committed w.moves w.txs
  held : ∀ p tx s, w.txs p = some tx → w.sessions p = some s → Held tx s

section
variable [DecidableEq P] {start : EntryRef → Option Row} {w w' : World P} {l : Label P} {p : P}

theorem held_put {txs : P → Option (Tx EntryRef (Option Row) Logged)} {sessions : P → Option Session}
    (h : ∀ q tx s, txs q = some tx → sessions q = some s → Held tx s)
    {tx? : Option (Tx EntryRef (Option Row) Logged)} {s? : Option Session}
    (hp : ∀ tx s, tx? = some tx → s? = some s → Held tx s) :
    ∀ q tx s, Function.update txs p tx? q = some tx → Function.update sessions p s? q = some s →
      Held tx s := by
  intro q tx s htx hs
  by_cases hq : q = p
  · subst hq
    rw [Function.update_self] at htx hs
    exact hp tx s htx hs
  · rw [Function.update_of_ne hq] at htx hs
    exact h q tx s htx hs

theorem held_session {txs : P → Option (Tx EntryRef (Option Row) Logged)}
    {sessions : P → Option Session}
    (h : ∀ q tx s, txs q = some tx → sessions q = some s → Held tx s) {s? : Option Session}
    (hp : ∀ tx s, txs p = some tx → s? = some s → Held tx s) :
    ∀ q tx s, txs q = some tx → Function.update sessions p s? q = some s → Held tx s := by
  have := held_put (p := p) h hp
  rwa [Function.update_eq_self] at this

theorem Inv.step (I : Inv start w) (h : Step w l w') : Inv start w' := by
  cases h with
  | call c hs =>
    refine ⟨I.linked.begin, held_put I.held ?_⟩
    rintro tx s - hs' running hrunning
    cases hs'
    cases hrunning
  | @begin p tx st rest targets htx hs hselects =>
    refine ⟨I.linked, held_session I.held ?_⟩
    rintro tx' s htx' hs' running hrunning
    cases hs'
    cases hrunning
    cases htx.symm.trans htx'
    refine ⟨hselects.nodup, fun entry _ row hrow => ?_⟩
    show (tx.writes entry).getD _ = row
    rw [hrow, Option.getD_some]
  | @update p tx st rest snapshot entry targets r now htx hs hfree hrow htakes =>
    refine ⟨I.linked.write htx hfree ⟨r, hrow, rfl, congrArg (applyMove · _) hrow⟩, held_put I.held ?_⟩
    rintro tx' s htx' hs' running hrunning
    cases htx'
    cases hs'
    cases hrunning
    obtain ⟨hnodup, hheld⟩ := I.held p tx _ htx hs _ rfl
    obtain ⟨hnotin, hnodup⟩ := nodup_cons.mp hnodup
    refine ⟨hnodup, fun e he row hwrites => ?_⟩
    -- the rows that are left are not the one just written
    have hne : e ≠ entry := fun heq => hnotin (heq ▸ he)
    exact hheld e (mem_cons_of_mem _ he) row ((Function.update_of_ne hne _ _).symm.trans hwrites)
  | @skip p tx st rest snapshot entry targets htx hs hfree htakes =>
    refine ⟨I.linked, held_session I.held ?_⟩
    rintro tx' s htx' hs' running hrunning
    cases hs'
    cases hrunning
    obtain ⟨hnodup, hheld⟩ := I.held p tx' _ htx' hs _ rfl
    exact ⟨(nodup_cons.mp hnodup).2, fun e he => hheld e (mem_cons_of_mem _ he)⟩
  | finish hs =>
    refine ⟨I.linked, held_session I.held ?_⟩
    rintro tx s - hs' running hrunning
    cases hs'
    cases hrunning
  | commit htx hs => exact ⟨I.linked.commit htx, held_put I.held fun _ _ h => nomatch h⟩
  | rollback hs => exact ⟨I.linked.abort, held_put I.held fun _ _ h => nomatch h⟩

theorem inv_reachable (h : (tiering P start).Reachable w) : Inv start w := by
  refine LTS.InductiveOn.reachable ⟨?_, fun s l s' I _ hstep => I.step hstep⟩ h
  rintro _ rfl
  exact ⟨.init fun _ => rfl, fun _ _ _ htx => nomatch htx⟩

theorem chained_iff (I : Inv start w) : Chained start w ↔ ∀ m ∈ w.moves, m.from_tier = m.found := by
  have heach : ∀ entry, Chain (tierOf (start entry)) (history w entry) (tierOf (w.committed entry)) ↔
      ∀ m ∈ history w entry, m.from_tier = m.found := fun entry => chain_iff (I.linked.rows entry)
  constructor
  · intro h m hm
    exact (heach m.entry).mp (h m.entry) m (mem_filter.mpr ⟨hm, by simp⟩)
  · intro h entry
    exact (heach entry).mpr fun m hm => h m (mem_filter.mp hm).1

/-- An update finds in its row the tier that the snapshot of its statement has. -/
def Fresh (w : World P) : Label P → Prop
  | .update p _ => ∀ tx rest st snapshot entry targets, w.txs p = some tx →
      w.sessions p = some ⟨rest, some ⟨st, snapshot, entry :: targets⟩⟩ →
      tierOf (snapshot entry) = tierOf (tx.view w.committed entry)
  | _ => True

/-- The moves of the committed and of the open transactions are from what their updates found. -/
def Truthful (w : World P) : Prop :=
  (∀ m ∈ w.moves, m.from_tier = m.found) ∧
    ∀ p tx, w.txs p = some tx → ∀ m ∈ tx.done, m.from_tier = m.found

theorem truthful_put {txs : P → Option (Tx EntryRef (Option Row) Logged)}
    (h : ∀ q tx, txs q = some tx → ∀ m ∈ tx.done, m.from_tier = m.found)
    {tx? : Option (Tx EntryRef (Option Row) Logged)}
    (hp : ∀ tx, tx? = some tx → ∀ m ∈ tx.done, m.from_tier = m.found) :
    ∀ q tx, Function.update txs p tx? q = some tx → ∀ m ∈ tx.done, m.from_tier = m.found := by
  intro q tx htx
  rw [Function.update_apply] at htx
  split at htx
  · exact hp tx htx
  · exact h q tx htx

theorem Truthful.step (T : Truthful w) (hfresh : Fresh w l) (h : Step w l w') : Truthful w' := by
  obtain ⟨hmoves, hdone⟩ := T
  cases h with
  | call c hs =>
    refine ⟨hmoves, truthful_put hdone ?_⟩
    rintro _ ⟨⟩ m hm
    cases hm
  | begin | skip | finish => exact ⟨hmoves, hdone⟩
  | @update p tx st rest snapshot entry targets r now htx hs hfree hrow htakes =>
    refine ⟨hmoves, truthful_put hdone ?_⟩
    rintro _ ⟨⟩ m hm
    rcases mem_append.mp hm with hm | hm
    · exact hdone p tx htx m hm
    · obtain rfl := mem_singleton.mp hm
      have hsame := hfresh tx rest st snapshot entry targets htx hs
      rwa [hrow] at hsame
  | @commit p tx htx hs =>
    refine ⟨fun m hm => ?_, truthful_put hdone fun _ h => nomatch h⟩
    rcases mem_append.mp hm with hm | hm
    · exact hmoves m hm
    · exact hdone p tx htx m hm
  | rollback hs => exact ⟨hmoves, truthful_put hdone fun _ h => nomatch h⟩

theorem truthful_reachable (h : (tiering P start).ReachableOn Fresh w) : Truthful w := by
  refine LTS.InductiveOn.reachable ⟨?_, fun s l s' T hfresh hstep => T.step hfresh hstep⟩ h
  rintro _ rfl
  exact ⟨fun _ hm => (not_mem_nil hm).elim, fun _ _ htx => nomatch htx⟩

theorem step_unseen (h : Step w l w') (hl : ∀ p, l ≠ .commit p) :
    w'.committed = w.committed ∧ w'.moves = w.moves := by
  cases h with
  | commit htx hs => exact absurd rfl (hl _)
  | call | begin | update | skip | finish | rollback => exact ⟨rfl, rfl⟩

end

/-- The histories are chains exactly when each committed move is from the tier that its update
found, and so in every run whose updates find what their snapshots have. What a transaction that is
not committed has written and recorded is not seen, and of an entry that it has moved before, the
next statement of a batch has the tier it was moved to in its snapshot. -/
theorem tier_history_iff (P : Type) [DecidableEq P] (start : EntryRef → Option Row) :
    (∀ w : World P, (tiering P start).Reachable w →
      (Chained start w ↔ ∀ m ∈ w.moves, m.from_tier = m.found)) ∧
    (∀ w : World P, (tiering P start).ReachableOn Fresh w → Chained start w) ∧
    (∀ (w : World P) l w', (tiering P start).step w l w' → (∀ p, l ≠ .commit p) →
      w'.committed = w.committed ∧ w'.moves = w.moves) ∧
    ∀ (w : World P) p tx rest running entry row, (tiering P start).Reachable w →
      w.txs p = some tx → w.sessions p = some ⟨rest, some running⟩ → entry ∈ running.targets →
      tx.writes entry = some row → running.snapshot entry = tx.view w.committed entry := by
  refine ⟨fun w h => chained_iff (inv_reachable h), fun w h => ?_, fun w l w' h hl => step_unseen h hl, ?_⟩
  · exact (chained_iff (inv_reachable (h.mono fun _ _ _ => trivial))).mpr (truthful_reachable h).1
  · intro w p tx rest running entry row h htx hs hentry hwrites
    have hrow := ((inv_reachable h).held p tx _ htx hs running rfl).2 entry hentry row hwrites
    rw [hrow, Tx.view, hwrites, Option.getD_some]

def sampleEntry : EntryRef := (.thoughts, units "e")

def sampleStart (entry : EntryRef) : Option Row :=
  if entry = sampleEntry then some ⟨some .warm, units "collab", false, [], 0⟩ else none

theorem reachable_step {P : Type} [DecidableEq P] {start : EntryRef → Option Row} {w w' : World P}
    {l : Label P} (h : (tiering P start).Reachable w) (hstep : Step w l w') :
    (tiering P start).Reachable w' := by
  obtain ⟨w₀, ls, hinit, hrun⟩ := h
  exact ⟨w₀, ls ++ [l], hinit, hrun.append (.cons trivial hstep (.nil w'))⟩

/-- Two calls of `set_tier` begin before either commits; both moves are recorded from warm. -/
theorem tier_history_broken :
    ¬∀ (P : Type) (_ : DecidableEq P) (start : EntryRef → Option Row) (w : World P),
      (tiering P start).Reachable w → Chained start w := by
  intro hall
  have hselects : ∀ tier, Selects sampleStart (.setTierWithHistory sampleEntry tier none SET_TIER_CAUSE)
      [sampleEntry] := fun tier => by simp [Selects, sampleStart, Statement.takes, permits]
  have r₀ : (tiering Bool sampleStart).Reachable ⟨sampleStart, [], fun _ => none, fun _ => none⟩ :=
    ⟨_, [], rfl, .nil _⟩
  have r₁ := reachable_step r₀ (.call (p := false) (.set_tier sampleEntry .hot none) rfl)
  have r₂ := reachable_step r₁ (.call (p := true) (.set_tier sampleEntry .cold none) rfl)
  have r₃ := reachable_step r₂ (.begin (p := false) [sampleEntry] rfl rfl (hselects .hot))
  have r₄ := reachable_step r₃ (.begin (p := true) [sampleEntry] rfl rfl (hselects .cold))
  have r₅ := reachable_step r₄ (.update (p := false) 1 rfl rfl
    (by rintro (_ | _) hq tx ⟨⟩ <;> first | rfl | exact absurd rfl hq) rfl rfl)
  have r₆ := reachable_step r₅ (.finish (p := false) rfl)
  have r₇ := reachable_step r₆ (.commit (p := false) rfl rfl)
  -- the second update was waiting, and finds what the first one committed
  have r₈ := reachable_step r₇ (.update (p := true) 2 rfl rfl
    (by rintro (_ | _) hq tx htx <;> first | exact absurd rfl hq | cases htx) rfl rfl)
  have r₉ := reachable_step r₈ (.finish (p := true) rfl)
  have r₁₀ := reachable_step r₉ (.commit (p := true) rfl rfl)
  have hchain := hall Bool inferInstance sampleStart _ r₁₀ sampleEntry
  have hsecond : (some Tier.warm : Option Tier) = some .hot := hchain.2.1
  cases hsecond

end OpenBrain.Server.Tiering

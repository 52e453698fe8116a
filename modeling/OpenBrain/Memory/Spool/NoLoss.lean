import OpenBrain.Memory.Spool.Replay

/-!
# Nothing accepted is lost (`spool.py`)

Lines of the spool are *covered* when they are in the spool, or when they belong
to a unit whose signature is accounted for: some unit with this signature is whole
in the sidecar, or was delivered. Every step keeps covered lines covered
(`covered_step`); in a commit this is so after each of its writes
(`covered_commit`).
-/
namespace OpenBrain.Memory.Spool
open OpenBrain.Core OpenBrain.Core.Py List

structure Known (H : Host) (seen : List Str) (u : SpoolUnit) : Prop where
  parsed : Parsed H u
  seen : ∀ line ∈ u.lines, line ∈ seen

structure PassInv (H : Host) (s : State) (pass : Pass) : Prop where
  todo : ∀ u ∈ pass.todo, Known H s.seen u
  replayed : ∀ σ ∈ pass.replayed_units, ∃ u ∈ s.delivered, u.signature = some σ

structure Inv (H : Host) (s : State) : Prop where
  plain : Plain s.files.spool
  seen : ∀ line ∈ s.files.spool, line ∈ s.seen
  delivered : ∀ u ∈ s.delivered, Known H s.seen u
  passes : ∀ p pass, s.passes p = some pass → PassInv H s pass

def Accounted (H : Host) (s : State) (quarantine : List Str) (σ : Signature) : Prop :=
  ∃ u, Known H s.seen u ∧ u.signature = some σ ∧
    (HasBlock header quarantine (unitKey σ) u.lines ∨ u ∈ s.delivered)

def Covered (H : Host) (s : State) (lines : List Str) : Prop :=
  lines <:+: s.files.spool ∨
    ∃ u σ, Parsed H u ∧ u.signature = some σ ∧ lines <:+: u.lines ∧
      Accounted H s s.files.quarantine σ

section Monotone

variable {H : Host} {s s' : State}

theorem Known.mono {seen seen' : List Str} {u : SpoolUnit} (h : Known H seen u)
    (hsub : ∀ line ∈ seen, line ∈ seen') : Known H seen' u :=
  ⟨h.parsed, fun line hline => hsub line (h.seen line hline)⟩

theorem PassInv.mono {pass : Pass} (h : PassInv H s pass) (hseen : ∀ l ∈ s.seen, l ∈ s'.seen)
    (hdel : ∀ u ∈ s.delivered, u ∈ s'.delivered) : PassInv H s' pass where
  todo u hu := (h.todo u hu).mono hseen
  replayed σ hσ := by
    obtain ⟨u, hu, hs⟩ := h.replayed σ hσ
    exact ⟨u, hdel u hu, hs⟩

theorem Accounted.mono {q : List Str} {σ : Signature} (h : Accounted H s q σ)
    (hseen : ∀ l ∈ s.seen, l ∈ s'.seen) (hdel : ∀ u ∈ s.delivered, u ∈ s'.delivered) :
    Accounted H s' q σ := by
  obtain ⟨u, hk, hs, hin⟩ := h
  exact ⟨u, hk.mono hseen, hs, hin.imp_right (hdel u)⟩

theorem Covered.mono {lines : List Str} (h : Covered H s lines)
    (hspool : s.files.spool <:+: s'.files.spool) (hseen : ∀ l ∈ s.seen, l ∈ s'.seen)
    (hdel : ∀ u ∈ s.delivered, u ∈ s'.delivered)
    (hq : s'.files.quarantine = s.files.quarantine) : Covered H s' lines := by
  rcases h with h | ⟨u, σ, hp, hs, hin, hacc⟩
  · exact .inl (h.trans hspool)
  · refine .inr ⟨u, σ, hp, hs, hin, ?_⟩
    rw [hq]
    exact hacc.mono hseen hdel

end Monotone

/-! ## The commit, write by write -/

section Commit

variable {H : Host} {pass : Pass} {us : List SpoolUnit}

theorem mem_quarantinedNow {e : Entry} (h : e ∈ pass.quarantinedNow us) :
    e.2.1 ∈ us ∧ ∃ σ, e.2.1.signature = some σ ∧ e.1 = unitKey σ ∧ σ ∉ pass.replayed_units := by
  obtain ⟨u, hu, hf⟩ := mem_filterMap.mp h
  unfold Pass.fate at hf
  cases hs : u.signature with
  | none =>
    rw [hs] at hf
    cases hf
  | some σ =>
    rw [hs] at hf
    dsimp only at hf
    by_cases hr : σ ∈ pass.replayed_units
    · rw [if_pos hr] at hf
      cases hf
    · rw [if_neg hr] at hf
      cases hl : pass.quarantine_updates.lookup (unitKey σ) with
      | none =>
        rw [hl] at hf
        cases hf
      | some state =>
        rw [hl] at hf
        cases hf
        exact ⟨hu, σ, hs, rfl, hr⟩

theorem fate_cases (pass : Pass) {u : SpoolUnit} (hu : u ∈ us) :
    u ∈ pass.remainingUnits us ∨
      (∃ σ, u.signature = some σ ∧ σ ∈ pass.replayed_units) ∨
      (∃ σ state, u.signature = some σ ∧ (unitKey σ, u, state) ∈ pass.quarantinedNow us) := by
  cases hf : pass.fate u with
  | remaining =>
    refine .inl (mem_filter.mpr ⟨hu, ?_⟩)
    rw [hf]
    rfl
  | replayed =>
    refine .inr (.inl ?_)
    unfold Pass.fate at hf
    cases hs : u.signature with
    | none =>
      rw [hs] at hf
      cases hf
    | some σ =>
      rw [hs] at hf
      dsimp only at hf
      by_cases hr : σ ∈ pass.replayed_units
      · exact ⟨σ, rfl, hr⟩
      · rw [if_neg hr] at hf
        split at hf <;> cases hf
  | quarantined e =>
    refine .inr (.inr ?_)
    have hmem : e ∈ pass.quarantinedNow us := by
      refine mem_filterMap.mpr ⟨u, hu, ?_⟩
      rw [hf]
      rfl
    unfold Pass.fate at hf
    cases hs : u.signature with
    | none =>
      rw [hs] at hf
      cases hf
    | some σ =>
      rw [hs] at hf
      dsimp only at hf
      split at hf
      · cases hf
      split at hf
      · cases hf
        exact ⟨σ, _, rfl, hmem⟩
      · cases hf

/-- The sidecar after the first write of the commit. -/
def Pass.appended (pass : Pass) (us : List SpoolUnit) (q : List Str) : List Str :=
  if (pass.quarantinedNow us).isEmpty then q
  else appendQuarantined q (pass.quarantinedNow us) pass.now

/-- The sidecar after the second write. -/
def Pass.reconciled (pass : Pass) (q : List Str) : List Str :=
  if (pass.replayed_units.map unitKey).isEmpty then q
  else removeQuarantined q (pass.replayed_units.map unitKey)

theorem commitWrites_eq : pass.commitWrites us =
    [fun f => { f with quarantine := pass.appended us f.quarantine },
      fun f => { f with quarantine := pass.reconciled f.quarantine },
      fun f => { f with spool := (pass.remainingUnits us).flatMap SpoolUnit.lines },
      fun f => { f with retry := some (writeRetryState (pass.retryState us)) }] := by
  unfold Pass.commitWrites
  dsimp only
  congr 1
  · funext f
    unfold Pass.appended
    split <;> rfl
  congr 1
  funext f
  unfold Pass.reconciled
  split <;> rfl

/-- The files after `k` writes. -/
theorem commit_files' {files files' : Files} {k : Nat} (h : pass.commit H files k = some files')
    (hch : pass.hasChanges = true) : ∃ us, parseUnits H files.spool = some us ∧
      files'.quarantine = (if 2 ≤ k then pass.reconciled (pass.appended us files.quarantine)
        else if 1 ≤ k then pass.appended us files.quarantine else files.quarantine) ∧
      files'.spool = (if 3 ≤ k then (pass.remainingUnits us).flatMap SpoolUnit.lines
        else files.spool) := by
  unfold Pass.commit at h
  rw [if_pos hch] at h
  obtain ⟨us, hus, rfl⟩ := Option.map_eq_some_iff.mp h
  refine ⟨us, hus, ?_⟩
  rw [commitWrites_eq]
  rcases k with _ | _ | _ | _ | k
  · exact ⟨rfl, rfl⟩
  · exact ⟨rfl, rfl⟩
  · exact ⟨rfl, rfl⟩
  · exact ⟨rfl, rfl⟩
  · rw [if_pos (by omega), if_pos (by omega)]
    simp only [take_succ_cons, take_nil]
    exact ⟨rfl, rfl⟩

theorem commit_files {files files' : Files} {k : Nat} (h : pass.commit H files k = some files') :
    files' = files ∨ ∃ us, parseUnits H files.spool = some us ∧
      files'.quarantine = (if 2 ≤ k then pass.reconciled (pass.appended us files.quarantine)
        else if 1 ≤ k then pass.appended us files.quarantine else files.quarantine) ∧
      files'.spool = (if 3 ≤ k then (pass.remainingUnits us).flatMap SpoolUnit.lines
        else files.spool) := by
  by_cases hch : pass.hasChanges = true
  · exact .inr (commit_files' h hch)
  · unfold Pass.commit at h
    rw [if_neg hch] at h
    exact .inl (Option.some.inj h).symm

end Commit

section Sidecar

variable {H : Host} {s : State} {pass : Pass} {us : List SpoolUnit} {q : List Str}

theorem Inv.known (hI : Inv H s) (hus : parseUnits H s.files.spool = some us) {u : SpoolUnit}
    (hu : u ∈ us) : Known H s.seen u :=
  ⟨parsed_of_mem hus hu, fun line hline => hI.seen line (lines_subset hus hu line hline)⟩

theorem Inv.plainEntries (hI : Inv H s) (hus : parseUnits H s.files.spool = some us) :
    PlainEntries (pass.quarantinedNow us) := by
  intro e he line hline
  exact hI.plain line (lines_subset hus (mem_quarantinedNow he).1 line hline)

theorem countKey_appended (h : PlainEntries (pass.quarantinedNow us)) (k : Str) :
    countKey header k (pass.appended us q) =
      if k ∈ (pass.quarantinedNow us).map Prod.fst then 1 else countKey header k q := by
  unfold Pass.appended
  split
  · rename_i hnil
    rw [List.isEmpty_iff] at hnil
    rw [hnil]
    rfl
  · exact countKey_appendQuarantined h k

theorem countKey_reconciled (k : Str) : countKey header k (pass.reconciled q) =
    if k ∈ pass.replayed_units.map unitKey then 0 else countKey header k q := by
  unfold Pass.reconciled
  split
  · rename_i hnil
    rw [List.isEmpty_iff] at hnil
    rw [hnil]
    rfl
  · exact countKey_removeQuarantined _ k

theorem hasBlock_appended (h : PlainEntries (pass.quarantinedNow us)) {k : Str} {u : SpoolUnit}
    {st : UnitRetryState} (hlast : Assoc.last? (pass.quarantinedNow us) k = some (u, st)) :
    HasBlock header (pass.appended us q) k u.lines := by
  have hmem := Assoc.mem_of_last? hlast
  unfold Pass.appended
  rw [if_neg (by simpa using ne_nil_of_mem hmem)]
  exact hasBlock_fresh h hlast

theorem hasBlock_appended_kept (h : PlainEntries (pass.quarantinedNow us)) {k : Str}
    {body : List Str} (hk : k ∉ (pass.quarantinedNow us).map Prod.fst)
    (hb : HasBlock header q k body) : HasBlock header (pass.appended us q) k body := by
  unfold Pass.appended
  split
  · exact hb
  · exact hasBlock_kept h hk hb

theorem hasBlock_reconciled {k : Str} {body : List Str}
    (hk : k ∉ pass.replayed_units.map unitKey) (hb : HasBlock header q k body) :
    HasBlock header (pass.reconciled q) k body := by
  unfold Pass.reconciled
  split
  · exact hb
  · exact hasBlock_removeQuarantined hk hb

theorem unitKey_mem_iff {σ : Signature} {σs : List Signature} :
    unitKey σ ∈ σs.map unitKey ↔ σ ∈ σs :=
  mem_map_of_injective (fun _ _ => unitKey_injective)

theorem accounted_fresh (hI : Inv H s) (hus : parseUnits H s.files.spool = some us)
    {σ : Signature} (hk : unitKey σ ∈ (pass.quarantinedNow us).map Prod.fst) :
    Accounted H s (pass.appended us q) σ := by
  obtain ⟨e, he, hek⟩ := mem_map.mp hk
  obtain ⟨⟨u, st⟩, hlast⟩ := Assoc.last?_of_mem he
  rw [hek] at hlast
  obtain ⟨hu, τ, hτ, hkey, -⟩ := mem_quarantinedNow (Assoc.mem_of_last? hlast)
  have : σ = τ := unitKey_injective hkey
  subst this
  exact ⟨u, hI.known hus hu, hτ, .inl (hasBlock_appended (hI.plainEntries hus) hlast)⟩

theorem accounted_appended (hI : Inv H s) (hus : parseUnits H s.files.spool = some us)
    {σ : Signature} (h : Accounted H s q σ) : Accounted H s (pass.appended us q) σ := by
  by_cases hk : unitKey σ ∈ (pass.quarantinedNow us).map Prod.fst
  · exact accounted_fresh hI hus hk
  · obtain ⟨u, hknown, hs, hin⟩ := h
    refine ⟨u, hknown, hs, ?_⟩
    exact hin.imp_left (hasBlock_appended_kept (hI.plainEntries hus) hk)

theorem accounted_replayed (hI : Inv H s) (hp : PassInv H s pass) {σ : Signature}
    (hσ : σ ∈ pass.replayed_units) : Accounted H s q σ := by
  obtain ⟨u, hu, hs⟩ := hp.replayed σ hσ
  exact ⟨u, hI.delivered u hu, hs, .inr hu⟩

/-- So does the second. -/
theorem accounted_reconciled (hI : Inv H s) (hp : PassInv H s pass) {σ : Signature}
    (h : Accounted H s q σ) : Accounted H s (pass.reconciled q) σ := by
  by_cases hσ : σ ∈ pass.replayed_units
  · exact accounted_replayed hI hp hσ
  · obtain ⟨u, hknown, hs, hin⟩ := h
    exact ⟨u, hknown, hs, hin.imp_left (hasBlock_reconciled (unitKey_mem_iff.not.mpr hσ))⟩

theorem covered_commit (hI : Inv H s) (hp : PassInv H s pass) {k : Nat} {files : Files}
    {passes : Nat → Option Pass} (hc : pass.commit H s.files k = some files) {lines : List Str}
    (hne : lines ≠ []) (ht : Together lines) (h : Covered H s lines) :
    Covered H { s with files := files, passes := passes } lines := by
  rcases commit_files hc with rfl | ⟨us, hus, hq, hspool⟩
  · exact h
  -- what was accounted for still is, whatever the prefix
  have hacc : ∀ σ, (1 ≤ k → Accounted H s (pass.appended us s.files.quarantine) σ) →
      (k < 1 → Accounted H s s.files.quarantine σ) → Accounted H s files.quarantine σ := by
    intro σ h₁ h₀
    rw [hq]
    split
    · exact accounted_reconciled hI hp (h₁ (by omega))
    split
    · exact h₁ (by omega)
    · exact h₀ (by omega)
  rcases h with hin | ⟨u, σ, hpu, hs, hin, h⟩
  · by_cases hk : 3 ≤ k
    · obtain ⟨u, hu, hLu⟩ := exists_unit_of_infix hus hne ht hin
      rw [if_pos hk] at hspool
      have hparsed := parsed_of_mem hus hu
      rcases fate_cases pass hu with hrem | ⟨σ, hs, hσ⟩ | ⟨σ, st, hs, hmem⟩
      · refine .inl ?_
        show lines <:+: files.spool
        rw [hspool, flatMap_def]
        exact hLu.trans (infix_of_mem_flatten (mem_map_of_mem hrem))
      · refine .inr ⟨u, σ, hparsed, hs, hLu, hacc σ ?_ ?_⟩
        · exact fun _ => accounted_replayed hI hp hσ
        · exact fun _ => accounted_replayed hI hp hσ
      · refine .inr ⟨u, σ, hparsed, hs, hLu, hacc σ ?_ ?_⟩
        · intro _
          exact accounted_fresh hI hus (mem_map_of_mem (f := Prod.fst) hmem)
        · omega
    · rw [if_neg hk] at hspool
      refine .inl ?_
      show lines <:+: files.spool
      rw [hspool]
      exact hin
  · refine .inr ⟨u, σ, hpu, hs, hin, hacc σ ?_ ?_⟩
    · exact fun _ => accounted_appended hI hus h
    · exact fun _ => h

end Sidecar

/-! ## Every step -/

section Steps

variable {H : Host} {s s' : State}

theorem setPass_cases {passes : Nat → Option Pass} {p q : Nat} {new : Option Pass} {pass : Pass}
    (h : setPass passes p new q = some pass) : new = some pass ∨ passes q = some pass := by
  unfold setPass at h
  split at h
  · exact .inl h
  · exact .inr h

theorem dispatch_spec {pass pass' : Pass} {o : Dispatch} {u? : Option SpoolUnit}
    (h : pass.dispatch o = some (pass', u?)) :
    (∀ u ∈ pass'.todo, u ∈ pass.todo) ∧ (∀ u ∈ u?, u ∈ pass.todo) ∧
      ∀ σ ∈ pass'.replayed_units, σ ∈ pass.replayed_units ∨ ∃ u ∈ u?, u.signature = some σ := by
  unfold Pass.dispatch at h
  cases htodo : pass.todo with
  | nil =>
    rw [htodo] at h
    cases h
  | cons unit rest =>
    rw [htodo] at h
    dsimp only at h
    have htail : ∀ u ∈ pass.todo.tail, u ∈ unit :: rest := by
      intro u hu
      rw [htodo] at hu
      exact mem_cons_of_mem _ hu
    split at h
    · rename_i records signature _ hsig
      cases o with
      | ok result =>
        dsimp only at h
        split at h
        · cases h
          refine ⟨?_, ?_, fun σ hσ => .inl hσ⟩
          · intro u hu
            exact hu
          · intro u hu
            cases hu
        · cases h
          refine ⟨htail, ?_, ?_⟩
          · intro u hu
            cases hu
            exact mem_cons_self
          · intro σ hσ
            rcases mem_cons.mp hσ with rfl | hσ
            · exact .inr ⟨unit, rfl, hsig⟩
            · exact .inl hσ
      | retained =>
        cases h
        refine ⟨htail, ?_, fun σ hσ => .inl hσ⟩
        intro u hu
        cases hu
      | failed error_category =>
        dsimp only at h
        have hnone : ∀ u ∈ (none : Option SpoolUnit), u ∈ unit :: rest := by
          intro u hu
          cases hu
        split at h
        · cases h
          exact ⟨htail, hnone, fun σ hσ => .inl hσ⟩
        · cases h
          exact ⟨htail, hnone, fun σ hσ => .inl hσ⟩
    · cases h

theorem inv_append (hI : Inv H s) {cfg : Config} {b : Batch} {lines keys : List Str}
    (hb : appendBatch cfg H s.files.spool b = .ok (lines, keys)) :
    Inv H { s with files := { s.files with spool := lines }, seen := s.seen ++ b.lines H } := by
  have hlines := appendBatch_ok hb
  have hseen : ∀ l ∈ s.seen, l ∈ s.seen ++ b.lines H := fun l hl => mem_append_left _ hl
  refine ⟨?_, ?_, ?_, ?_⟩
  · intro line hline
    change line ∈ lines at hline
    rw [hlines, mem_append] at hline
    rcases hline with hline | hline
    · exact hI.plain line hline
    · exact b.plain line hline
  · intro line hline
    change line ∈ lines at hline
    rw [hlines, mem_append] at hline
    rcases hline with hline | hline
    · exact hseen line (hI.seen line hline)
    · exact mem_append_right _ hline
  · exact fun u hu => (hI.delivered u hu).mono hseen
  · exact fun p pass hp => (hI.passes p pass hp).mono hseen fun u hu => hu

theorem inv_snapshot (hI : Inv H s) {p : Nat} {cfg : Config} {now : Double} {pass : Pass}
    (hp : startPass cfg H s.files now = some pass) :
    Inv H { s with passes := setPass s.passes p (some pass) } := by
  unfold startPass at hp
  obtain ⟨us, hus, hp⟩ := Option.bind_eq_some_iff.mp hp
  obtain ⟨retry, -, hp⟩ := Option.bind_eq_some_iff.mp hp
  cases hp
  refine ⟨hI.plain, hI.seen, hI.delivered, ?_⟩
  intro q pass' hq
  rcases setPass_cases hq with hq | hq
  · cases hq
    refine ⟨?_, ?_⟩
    · exact fun u hu => hI.known hus (mem_of_mem_filter hu)
    · intro σ hσ
      cases hσ
  · exact (hI.passes q pass' hq).mono (fun l hl => hl) fun u hu => hu

theorem inv_dispatch (hI : Inv H s) {p : Nat} {pass pass' : Pass} {o : Dispatch}
    {u? : Option SpoolUnit} (hp : s.passes p = some pass)
    (hd : pass.dispatch o = some (pass', u?)) :
    Inv H { s with
      passes := setPass s.passes p (some pass')
      delivered := s.delivered ++ u?.toList } := by
  obtain ⟨htodo, hu, hrep⟩ := dispatch_spec hd
  have hpass := hI.passes p pass hp
  have hdel : ∀ u ∈ s.delivered, u ∈ s.delivered ++ u?.toList :=
    fun u hu => mem_append_left _ hu
  refine ⟨hI.plain, hI.seen, ?_, ?_⟩
  · intro u hmem
    rcases mem_append.mp hmem with hmem | hmem
    · exact hI.delivered u hmem
    · exact hpass.todo u (hu u (Option.mem_toList.mp hmem))
  · intro q pass'' hq
    rcases setPass_cases hq with hq | hq
    · cases hq
      refine ⟨fun u hu => hpass.todo u (htodo u hu), ?_⟩
      intro σ hσ
      rcases hrep σ hσ with hσ | ⟨u, hmem, hs⟩
      · obtain ⟨u, hmem, hs⟩ := hpass.replayed σ hσ
        exact ⟨u, hdel u hmem, hs⟩
      · exact ⟨u, mem_append_right _ (Option.mem_toList.mpr hmem), hs⟩
    · exact (hI.passes q pass'' hq).mono (fun l hl => hl) hdel

theorem inv_files (hI : Inv H s) {files : Files} {p : Nat}
    (hsub : ∀ line ∈ files.spool, line ∈ s.files.spool) :
    Inv H { s with files := files, passes := setPass s.passes p none } := by
  refine ⟨fun l hl => hI.plain l (hsub l hl), fun l hl => hI.seen l (hsub l hl), hI.delivered, ?_⟩
  intro q pass hq
  rcases setPass_cases hq with hq | hq
  · cases hq
  · exact (hI.passes q pass hq).mono (fun l hl => hl) fun u hu => hu

theorem commit_subset {pass : Pass} {files files' : Files} {k : Nat}
    (h : pass.commit H files k = some files') : ∀ line ∈ files'.spool, line ∈ files.spool := by
  rcases commit_files h with rfl | ⟨us, hus, -, hspool⟩
  · exact fun line hline => hline
  · rw [hspool]
    split
    · intro line hline
      obtain ⟨u, hu, hline⟩ := mem_flatMap.mp hline
      exact lines_subset hus (mem_of_mem_filter hu) line hline
    · exact fun line hline => hline

theorem step_keeps (hI : Inv H s) {l : Label} (h : step H s l = some s') :
    Inv H s' ∧ ∀ lines, lines ≠ [] → Together lines → Covered H s lines → Covered H s' lines := by
  cases l with
  | append cfg b =>
    dsimp only [step] at h
    split at h
    · rename_i lines keys hb
      cases h
      refine ⟨inv_append hI hb, ?_⟩
      intro L _ _ hL
      refine hL.mono ?_ (fun l hl => mem_append_left _ hl) (fun u hu => hu) rfl
      rw [appendBatch_ok hb]
      exact (prefix_append _ _).isInfix
    · cases h
      exact ⟨hI, fun L _ _ hL => hL⟩
  | snapshot p cfg now =>
    dsimp only [step] at h
    split at h
    · cases h
    · obtain ⟨pass, hp, rfl⟩ := Option.map_eq_some_iff.mp h
      refine ⟨inv_snapshot hI hp, ?_⟩
      exact fun L _ _ hL => hL.mono infix_rfl (fun l hl => hl) (fun u hu => hu) rfl
  | dispatch p o =>
    obtain ⟨pass, hp, h⟩ := Option.bind_eq_some_iff.mp h
    obtain ⟨⟨pass', u?⟩, hd, rfl⟩ := Option.map_eq_some_iff.mp h
    refine ⟨inv_dispatch hI hp hd, ?_⟩
    intro L _ _ hL
    exact hL.mono infix_rfl (fun l hl => hl) (fun u hu => mem_append_left _ hu) rfl
  | finish p k =>
    obtain ⟨pass, hp, h⟩ := Option.bind_eq_some_iff.mp h
    split at h
    · obtain ⟨files, hc, rfl⟩ := Option.map_eq_some_iff.mp h
      refine ⟨inv_files hI (commit_subset hc), ?_⟩
      exact fun L hne ht hL => covered_commit hI (hI.passes p pass hp) hc hne ht hL
    · cases h
  | abandon p =>
    cases h
    refine ⟨inv_files hI fun l hl => hl, ?_⟩
    exact fun L _ _ hL => hL.mono infix_rfl (fun l hl => hl) (fun u hu => hu) rfl

theorem inv_init (h : Init s) : Inv H s := by
  obtain ⟨hplain, hseen, hdel, hpasses⟩ := h
  refine ⟨hplain, ?_, ?_, ?_⟩
  · rw [hseen]
    exact fun line hline => hline
  · rw [hdel]
    intro u hu
    cases hu
  · intro p pass hp
    rw [hpasses p] at hp
    cases hp

theorem inv_inductive : (system H).Inductive (Inv H) where
  init _ h := inv_init h
  step _ _ _ hI _ h := (step_keeps hI h).1

theorem covered_run {ls : List Label} (hI : Inv H s)
    (hr : (system H).RunOn LTS.anyStep s ls s') {lines : List Str} (hne : lines ≠ [])
    (ht : Together lines) (h : Covered H s lines) : Inv H s' ∧ Covered H s' lines := by
  induction hr with
  | nil s => exact ⟨hI, h⟩
  | cons _ hst _ ih =>
    obtain ⟨hI', hstep⟩ := step_keeps hI hst
    exact ih hI' (hstep lines hne ht h)

end Steps

/-! ## Accepted batches -/

section Accepted

variable {H : Host} {s s' t : State}

theorem Batch.lines_ne {b : Batch} (h : b.records ≠ []) : b.lines H ≠ [] := by
  apply length_pos_iff.mp
  rw [Batch.length_lines]
  exact length_pos_iff.mpr h

/-- At every later moment an accepted batch is in the spool, or a unit with its
group id and keys is whole in the sidecar or was delivered; and that unit is the
batch, when no other line of the spool ever claimed its identity. -/
theorem no_loss {cfg : Config} {b : Batch} {lines keys : List Str} {ls : List Label}
    (hs : (system H).Reachable s)
    (hb : appendBatch cfg H s.files.spool b = .ok (lines, keys))
    (hstep : step H s (.append cfg b) = some s')
    (hr : (system H).RunOn LTS.anyStep s' ls t) :
    b.lines H <:+: t.files.spool ∨
      ∃ u, Parsed H u ∧ u.signature = some b.signature ∧
        (b.Unique H t.seen → u.lines = b.lines H) ∧
        (HasBlock header t.files.quarantine (unitKey b.signature) u.lines ∨ u ∈ t.delivered) := by
  by_cases hne : b.records = []
  · refine .inl ?_
    have hnil : b.lines H = [] := by simp [Batch.lines, hne]
    rw [hnil]
    exact nil_infix
  have hI := inv_inductive.reachable hs
  have hI' := (step_keeps hI hstep).1
  have hspool : s'.files.spool = s.files.spool ++ b.lines H := by
    dsimp only [step] at hstep
    rw [hb] at hstep
    cases hstep
    exact appendBatch_ok hb
  have hcov : Covered H s' (b.lines H) := by
    refine .inl ?_
    rw [hspool]
    exact (suffix_append _ _).isInfix
  obtain ⟨-, h⟩ := covered_run hI' hr (Batch.lines_ne hne) (Batch.together hne) hcov
  rcases h with h | ⟨u, σ, hp, hsig, hin, u', hknown, hsig', hwhere⟩
  · exact .inl h
  · obtain ⟨-, rfl⟩ := unit_of_batch hp hsig hne hin
    refine .inr ⟨u', hknown.parsed, hsig', ?_, hwhere⟩
    exact fun hu => batch_of_signature hknown.parsed hsig' hknown.seen hu

end Accepted

section Repeated

def plainHost : Host := ⟨id, fun _ => false, fun _ => false⟩

def roomy : Config := ⟨1000, 1000000, 1, one_le_thousand, one_le_million, Nat.one_pos⟩

def midnight : Double := ⟨⟨false, 0, 0, Dec.zero_normal⟩, Double.zero_fixed⟩

/-- One record with the key `k` and an empty payload. -/
def single (operation : Str) : Batch :=
  ⟨[⟨operation, ⟨[], nil_value⟩, some (units "k")⟩], midnight, fun _ => []⟩

/-- No sidecar, no retry state, no pass. -/
def onlySpool (lines : List Str) : State := ⟨⟨lines, [], none⟩, fun _ => none, [], lines⟩

/-- A batch with the key of a delivered unit goes with it: `b` is appended between the
snapshot that holds `a` and its commit, and was never dispatched. -/
def repeatedKey : Option Bool := do
  let s ← LTS.exec (step plainHost) (onlySpool [])
    [.append roomy (single (units "a")), .snapshot 0 roomy midnight, .dispatch 0 (.ok .null)]
  let (_, _) ← (appendBatch roomy plainHost s.files.spool (single (units "b"))).toOption
  let s' ← step plainHost s (.append roomy (single (units "b")))
  let t ← LTS.exec (step plainHost) s' [.finish 0 4]
  some (t.files.spool.isEmpty && t.files.quarantine.isEmpty &&
    t.delivered.all fun u => u.lines == (single (units "a")).lines plainHost)

theorem repeatedKey_eq : repeatedKey = some true := by decide +kernel

theorem repeatedKey_run : ∃ s s' t lines keys ls, (system plainHost).Reachable s ∧
    appendBatch roomy plainHost s.files.spool (single (units "b")) = .ok (lines, keys) ∧
    step plainHost s (.append roomy (single (units "b"))) = some s' ∧
    (system plainHost).RunOn LTS.anyStep s' ls t ∧
    t.files.spool = [] ∧ t.files.quarantine = [] ∧
    ∀ u ∈ t.delivered, u.lines = (single (units "a")).lines plainHost := by
  have h := repeatedKey_eq
  unfold repeatedKey at h
  obtain ⟨s, hs, h⟩ := Option.bind_eq_some_iff.mp h
  obtain ⟨⟨lines, keys⟩, hb, h⟩ := Option.bind_eq_some_iff.mp h
  obtain ⟨s', hs', h⟩ := Option.bind_eq_some_iff.mp h
  obtain ⟨t, ht, h⟩ := Option.bind_eq_some_iff.mp h
  simp only [Option.some.injEq, Bool.and_eq_true, List.isEmpty_iff, all_eq_true,
    beq_iff_eq] at h
  obtain ⟨⟨hspool, hq⟩, hdel⟩ := h
  have hreach : (system plainHost).Reachable s := by
    refine ⟨onlySpool [], _, ⟨?_, rfl, rfl, fun _ => rfl⟩, LTS.runOn_of_exec_any hs⟩
    intro line hline
    cases hline
  refine ⟨s, s', t, lines, keys, _, hreach, ?_, hs', LTS.runOn_of_exec_any ht, hspool, hq, hdel⟩
  cases hres : appendBatch roomy plainHost s.files.spool (single (units "b")) with
  | ok res =>
    rw [hres] at hb
    cases hb
    rfl
  | error e =>
    rw [hres] at hb
    cases hb

theorem no_loss_repeatedKey : ∃ t : State, t.files.spool = [] ∧
    ((single (units "b")).lines plainHost <:+: t.files.spool ∨
      ∃ u, Parsed plainHost u ∧ u.signature = some (single (units "b")).signature ∧
        ((single (units "b")).Unique plainHost t.seen →
          u.lines = (single (units "b")).lines plainHost) ∧
        (HasBlock header t.files.quarantine (unitKey (single (units "b")).signature) u.lines ∨
          u ∈ t.delivered)) := by
  obtain ⟨s, s', t, lines, keys, ls, hreach, hok, hs', ht, hspool, -, -⟩ := repeatedKey_run
  exact ⟨t, hspool, no_loss hreach hok hs' ht⟩

theorem occurrence_loss : ¬ ∀ (H : Host) (s s' t : State) (cfg : Config) (b : Batch)
    (lines keys : List Str) (ls : List Label),
    (system H).Reachable s → appendBatch cfg H s.files.spool b = .ok (lines, keys) →
      step H s (.append cfg b) = some s' → (system H).RunOn LTS.anyStep s' ls t →
        ∀ line ∈ b.lines H, line ∈ t.files.spool ∨ line ∈ t.files.quarantine ∨
          ∃ u ∈ t.delivered, line ∈ u.lines := by
  intro hclaim
  obtain ⟨s, s', t, lines, keys, ls, hreach, hok, hs', ht, hspool, hq, hdel⟩ := repeatedKey_run
  have hline : ∃ line, line ∈ (single (units "b")).lines plainHost ∧
      line ∉ (single (units "a")).lines plainHost := by decide +kernel
  obtain ⟨line, hb, ha⟩ := hline
  rcases hclaim plainHost s s' t roomy _ lines keys ls hreach hok hs' ht line hb with
    hmem | hmem | ⟨u, hu, hmem⟩
  · rw [hspool] at hmem
    cases hmem
  · rw [hq] at hmem
    cases hmem
  · rw [hdel u hu] at hmem
    exact ha hmem

end Repeated

/-! ## Crash points of the commit -/

section Crash

variable {H : Host} {s s' t : State}

theorem size_of_group {u : SpoolUnit} {σ : Signature} (hp : Parsed H u)
    (hs : u.signature = some σ) {line g : Str} (hmem : line ∈ u.lines)
    (hg : rawGroupId line = some g) :
    ∃ r, parseRecord H line = .record r ∧ r.group_size = some (u.lines.length : Int) := by
  obtain ⟨r, rs, hrec, rfl⟩ := signature_eq hs
  obtain ⟨hall, hvalid⟩ := hp.records hrec
  obtain ⟨q, hq, hparse⟩ := forall₂_exists hall.flip hmem
  have hr : r.group_id ≠ none := by
    obtain ⟨l, hl, hpr⟩ := forall₂_exists hall mem_cons_self
    rw [group_id_of_parse hpr]
    rcases hp.together with ⟨l', hl'⟩ | ⟨g', hg'⟩
    · rw [hl', mem_singleton] at hl hmem
      rw [hl, ← hmem, hg]
      exact Option.some_ne_none g
    · rw [hg' l hl]
      exact Option.some_ne_none g'
  obtain ⟨hsize, hsame, -⟩ := validGroup_spec hvalid hr
  refine ⟨q, hparse, ?_⟩
  rw [(hsame q hq).2, hsize, hall.length_eq]

/-- A unit inside another is that unit, when both were read without corruption. -/
theorem unit_of_infix {u v : SpoolUnit} {σ τ : Signature} (hu : Parsed H u) (hv : Parsed H v)
    (hσ : u.signature = some σ) (hτ : v.signature = some τ) (hin : u.lines <:+: v.lines)
    (hne : u.lines ≠ []) : u = v := by
  have hlines : u.lines = v.lines := by
    apply hin.eq_of_length
    obtain ⟨line, hline⟩ := exists_mem_of_ne_nil _ hne
    have hline' := hin.subset hline
    rcases hv.together with ⟨l, hl⟩ | ⟨g, hg⟩
    · have hle := hin.length_le
      have hpos := length_pos_iff.mpr hne
      rw [hl, length_singleton] at hle ⊢
      omega
    · obtain ⟨q, hq, hsize⟩ := size_of_group hu hσ hline (hg line hline')
      obtain ⟨q', hq', hsize'⟩ := size_of_group hv hτ hline' (hg line hline')
      rw [hq] at hq'
      cases hq'
      rw [hsize] at hsize'
      have := Option.some.inj hsize'
      omega
  have hpu := hu.parse
  rw [hlines, hv.parse] at hpu
  exact (Option.some.inj hpu).symm

theorem covered_unit {us : List SpoolUnit} {u : SpoolUnit}
    (hus : parseUnits H s.files.spool = some us) (hu : u ∈ us) : Covered H s u.lines := by
  refine .inl ?_
  rw [← parseUnits_lines hus, flatMap_def]
  exact infix_of_mem_flatten (mem_map_of_mem hu)

theorem lines_ne {us : List SpoolUnit} {u : SpoolUnit}
    (hus : parseUnits H s.files.spool = some us) (hu : u ∈ us) : u.lines ≠ [] := by
  apply ne_nil_of_mem_splitBy (r := sameGroup) (l := s.files.spool)
  have hmem := mem_map_of_mem (f := SpoolUnit.lines) hu
  rw [parseUnits_map_lines hus] at hmem
  exact hmem

theorem covered_signature {u : SpoolUnit} {σ : Signature} (hp : Parsed H u)
    (hσ : u.signature = some σ) (hne : u.lines ≠ []) (h : Covered H t u.lines) :
    u.lines <:+: t.files.spool ∨ Accounted H t t.files.quarantine σ := by
  rcases h with h | ⟨v, τ, hv, hτ, hin, hacc⟩
  · exact .inl h
  · have := unit_of_infix hp hv hσ hτ hin hne
    subst this
    rw [hσ] at hτ
    cases hτ
    exact .inr hacc

def freshest (us : List SpoolUnit) (σ : Signature) : Option SpoolUnit :=
  (us.filter fun u => decide (u.signature = some σ)).getLast?

def Pass.Quarantines (pass : Pass) (σ : Signature) (st : UnitRetryState) : Prop :=
  σ ∉ pass.replayed_units ∧ pass.quarantine_updates.lookup (unitKey σ) = some st

theorem fate_quarantined {pass : Pass} {u : SpoolUnit} {σ : Signature} {st : UnitRetryState}
    (h : pass.Quarantines σ st) (hu : u.signature = some σ) :
    pass.fate u = .quarantined (unitKey σ, u, st) := by
  unfold Pass.fate
  rw [hu]
  dsimp only
  rw [if_neg h.1, h.2]

theorem last?_quarantinedNow {pass : Pass} {σ : Signature} {st : UnitRetryState}
    (h : pass.Quarantines σ st) (us : List SpoolUnit) :
    Assoc.last? (pass.quarantinedNow us) (unitKey σ) = (freshest us σ).map fun u => (u, st) := by
  induction us using List.reverseRecOn with
  | nil => rfl
  | append_singleton us u ih =>
    unfold Pass.quarantinedNow freshest at ih ⊢
    rw [filterMap_append, filter_append]
    by_cases hu : u.signature = some σ
    · have hone : [u].filterMap (fun u => (pass.fate u).toEntry) = [(unitKey σ, u, st)] := by
        simp [fate_quarantined h hu, Fate.toEntry]
      rw [hone, Assoc.last?_append_singleton, if_pos rfl]
      simp [hu]
    · have hrest : (us.filter (fun u => decide (u.signature = some σ)) ++
          [u].filter fun u => decide (u.signature = some σ)) =
          us.filter fun u => decide (u.signature = some σ) := by simp [hu]
      rw [hrest, ← ih]
      cases hf : pass.fate u with
      | quarantined e =>
        have hmem : e ∈ pass.quarantinedNow [u] := by
          unfold Pass.quarantinedNow
          simp [hf, Fate.toEntry]
        obtain ⟨hin, τ, hτ, hkey, -⟩ := mem_quarantinedNow hmem
        have hone : [u].filterMap (fun u => (pass.fate u).toEntry) = [e] := by
          simp [hf, Fate.toEntry]
        rw [hone, Assoc.last?_append_singleton, if_neg]
        intro heq
        rw [hkey] at heq
        have := unitKey_injective heq
        rw [mem_singleton] at hin
        rw [hin, this] at hτ
        exact hu hτ
      | replayed => simp [hf, Fate.toEntry]
      | remaining => simp [hf, Fate.toEntry]

/-- The sidecar after a prefix of the commit: one envelope with the freshest lines for
a key quarantined by it, none for a key replayed by it, and no second envelope for
any key. -/
theorem sidecar_commit {pass : Pass} (hI : Inv H s) {k : Nat} {files : Files}
    (hc : pass.commit H s.files k = some files) (hch : pass.hasChanges = true) :
    (1 ≤ k → ∀ us σ st u, parseUnits H s.files.spool = some us → pass.Quarantines σ st →
      freshest us σ = some u →
        countKey header (unitKey σ) files.quarantine = 1 ∧
          HasBlock header files.quarantine (unitKey σ) u.lines) ∧
      (2 ≤ k → ∀ σ ∈ pass.replayed_units, countKey header (unitKey σ) files.quarantine = 0) ∧
      ∀ key, countKey header key s.files.quarantine ≤ 1 →
        countKey header key files.quarantine ≤ 1 := by
  obtain ⟨us, hus, hq, -⟩ := commit_files' hc hch
  have hplain : PlainEntries (pass.quarantinedNow us) := hI.plainEntries hus
  rw [hq]
  refine ⟨?_, ?_, ?_⟩
  · intro hk us' σ st u hus' hquar hlast
    rw [hus] at hus'
    cases hus'
    have hentry : Assoc.last? (pass.quarantinedNow us) (unitKey σ) = some (u, st) := by
      rw [last?_quarantinedNow hquar, hlast]
      rfl
    have hmem := mem_map_of_mem (f := Prod.fst) (Assoc.mem_of_last? hentry)
    have hnot := unitKey_mem_iff.not.mpr hquar.1
    have hcount := countKey_appended (q := s.files.quarantine) hplain (unitKey σ)
    rw [if_pos hmem] at hcount
    have hblock := hasBlock_appended (q := s.files.quarantine) hplain hentry
    split
    · rw [countKey_reconciled, if_neg hnot]
      exact ⟨hcount, hasBlock_reconciled hnot hblock⟩
    · exact ⟨hcount, hblock⟩
  · intro hk σ hσ
    rw [if_pos hk, countKey_reconciled, if_pos (unitKey_mem_iff.mpr hσ)]
  · intro key hkey
    have happ : countKey header key (pass.appended us s.files.quarantine) ≤ 1 := by
      rw [countKey_appended hplain]
      split
      · exact le_refl 1
      · exact hkey
    split
    · rw [countKey_reconciled]
      split
      · exact Nat.zero_le 1
      · exact happ
    split
    · exact happ
    · exact hkey

end Crash

section Collisions

def crashed : Option Bool := do
  let s ← LTS.exec (step plainHost) (onlySpool ((single (units "a")).lines plainHost))
    [.snapshot 0 roomy midnight, .dispatch 0 (.failed (units "Error"))]
  let _ ← step plainHost s (.finish 0 1)
  let pass ← s.passes 0
  let us ← parseUnits plainHost s.files.spool
  let _ ← freshest us (none, [units "k"])
  let _ ← pass.quarantine_updates.lookup (unitKey (none, [units "k"]))
  some (pass.hasChanges && decide ((none, [units "k"]) ∉ pass.replayed_units))

theorem crashed_eq : crashed = some true := by decide +kernel

def AnyStart (s : State) : Prop :=
  s.seen = s.files.spool ∧ s.delivered = [] ∧ ∀ p, s.passes p = none

/-- Two units with one key: the first is replayed, the second fails, and the commit
removes both. -/
def sharedKey : Option Bool := do
  let s ← LTS.exec (step plainHost)
    (onlySpool ((single (units "a")).lines plainHost ++ (single (units "b")).lines plainHost))
    [.snapshot 0 roomy midnight, .dispatch 0 (.ok .null), .dispatch 0 (.failed (units "Error"))]
  let t ← step plainHost s (.finish 0 4)
  let us ← parseUnits plainHost s.files.spool
  let u ← us[1]?
  let σ ← u.signature
  some (t.files.spool.isEmpty && t.files.quarantine.isEmpty && σ == (none, [units "k"]) &&
    u.lines == (single (units "b")).lines plainHost &&
    t.delivered.all fun v => v.lines == (single (units "a")).lines plainHost)

theorem sharedKey_eq : sharedKey = some true := by decide +kernel

theorem sharedKey_run : ∃ s t us u σ pass, (system plainHost).Reachable s ∧
    s.passes 0 = some pass ∧ step plainHost s (.finish 0 4) = some t ∧
    parseUnits plainHost s.files.spool = some us ∧ u ∈ us ∧ u.signature = some σ ∧
    t.files.spool = [] ∧ t.files.quarantine = [] ∧
    u.lines = (single (units "b")).lines plainHost ∧
    ∀ v ∈ t.delivered, v.lines = (single (units "a")).lines plainHost := by
  have h := sharedKey_eq
  unfold sharedKey at h
  obtain ⟨s, hs, h⟩ := Option.bind_eq_some_iff.mp h
  obtain ⟨t, ht, h⟩ := Option.bind_eq_some_iff.mp h
  obtain ⟨us, hus, h⟩ := Option.bind_eq_some_iff.mp h
  obtain ⟨u, hu, h⟩ := Option.bind_eq_some_iff.mp h
  obtain ⟨σ, hσ, h⟩ := Option.bind_eq_some_iff.mp h
  simp only [Option.some.injEq, Bool.and_eq_true, List.isEmpty_iff, all_eq_true,
    beq_iff_eq] at h
  obtain ⟨⟨⟨⟨hspool, hq⟩, -⟩, hlines⟩, hdel⟩ := h
  obtain ⟨pass, hp, -⟩ := Option.bind_eq_some_iff.mp ht
  refine ⟨s, t, us, u, σ, pass, ?_, hp, ht, hus, mem_of_getElem? hu, hσ, hspool, hq, hlines,
    hdel⟩
  refine ⟨_, _, ⟨?_, rfl, rfl, fun _ => rfl⟩, LTS.runOn_of_exec_any hs⟩
  intro line hline
  rcases mem_append.mp hline with hline | hline
  · exact (single (units "a")).plain line hline
  · exact (single (units "b")).plain line hline

/-- A spool line that reads as an envelope of the key of `single`. -/
def envelopeRecord : Str :=
  dumps (.obj [(units "idempotency_key", .str (units "l")), (units "operation", .str (units "b")),
    (units "schema", .str QUARANTINE_ENVELOPE_SCHEMA),
    (units "unit_key", .str (unitKey (none, [units "k"])))])

/-- The unit of such a line is quarantined, and goes with the envelopes of the key that
was replayed. -/
def strayEnvelope : Option Bool := do
  let s ← LTS.exec (step plainHost)
    (onlySpool ((single (units "a")).lines plainHost ++ [envelopeRecord]))
    [.snapshot 0 roomy midnight, .dispatch 0 (.ok .null), .dispatch 0 (.failed (units "Error"))]
  let t ← step plainHost s (.finish 0 4)
  let us ← parseUnits plainHost s.files.spool
  let u ← us[1]?
  let σ ← u.signature
  some (t.files.spool.isEmpty && t.files.quarantine.length == 1 && σ == (none, [units "l"]) &&
    u.lines == [envelopeRecord] && decide ((us.map SpoolUnit.signature).Nodup) &&
    t.delivered.all fun v => v.lines == (single (units "a")).lines plainHost)

theorem strayEnvelope_eq : strayEnvelope = some true := by decide +kernel

end Collisions

end OpenBrain.Memory.Spool

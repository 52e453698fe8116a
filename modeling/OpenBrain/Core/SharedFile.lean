import OpenBrain.Core.Assoc
import OpenBrain.Core.LTS

/-!
# A file that several processes rewrite

A process loads the dictionary in a file, assigns keys of what it loaded and writes the whole
dictionary back, as often as its program says and under no lock. A write empties the file before
it fills it; where another write was under way, what the two leave is up to the run. `saved` is
what was last written under each key.

A save is *apart* when no write is under way and the other keys of its dictionary are as in the
file. `kept_of_reachable`: as long as every save is apart, the file holds what was saved. What a
process does that no other runs into is `runOn_call`.
-/
namespace OpenBrain.Core

/-- Texts `T` that hold a dictionary; a file is `none` when it is empty or missing. `text` is
what a dictionary is written as, `none` for one that cannot be written. -/
structure DictFile (T D κ β : Type) [DecidableEq κ] where
  load : Option T → D
  text : D → Option T
  get : D → κ → Option β
  set : D → κ → β → D
  load_text : ∀ {d t}, text d = some t → load (some t) = d
  get_set : ∀ d k v k', get (set d k v) k' = if k' = k then some v else get d k'

namespace SharedFile

variable {T D κ β ι Call : Type} [DecidableEq ι]

/-- A process, with the dictionary it loaded and the saves it has still to make. A save is the
assignments it makes to the dictionary first. -/
inductive Proc (D κ β : Type) where
  | idle
  | holding (dict : D) (todo : List (List (κ × β)))
  | writing (dict : D) (save : List (κ × β)) (todo : List (List (κ × β)))

def Proc.isWriting : Proc D κ β → Bool
  | .writing _ _ _ => true
  | _ => false

/-- Exchanging processes that do not write changes no writer. -/
theorem isWriting_update {p : ι} {procs : ι → Proc D κ β} {proc : Proc D κ β}
    (hold : (procs p).isWriting = false) (hnew : proc.isWriting = false) (q : ι) :
    (Function.update procs p proc q).isWriting = (procs q).isWriting := by
  by_cases hq : q = p
  · subst hq
    rw [Function.update_self, hold, hnew]
  · rw [Function.update_of_ne hq]

theorem writing_of_update {p q : ι} {procs : ι → Proc D κ β} {proc : Proc D κ β} {dict : D}
    {save : List (κ × β)} {todo : List (List (κ × β))} (hnew : proc.isWriting = false)
    (h : Function.update procs p proc q = .writing dict save todo) :
    procs q = .writing dict save todo := by
  by_cases hq : q = p
  · subst hq
    rw [Function.update_self] at h
    rw [h] at hnew
    cases hnew
  · rwa [Function.update_of_ne hq] at h

structure State (T D κ β ι : Type) where
  file : Option T
  procs : ι → Proc D κ β
  saved : κ → Option β

/-- `mixed` is what the file holds after a write that another one ran into. -/
inductive Label (T ι Call : Type) where
  | start (p : ι) (call : Call)
  | empty (p : ι)
  | write (p : ι) (mixed : Option T)
  | finish (p : ι)

variable [DecidableEq κ] (W : DictFile T D κ β) (program : Call → D → List (List (κ × β)))

def assign (dict : D) (save : List (κ × β)) : D := save.foldl (fun d w => W.set d w.1 w.2) dict

/-- What is saved under a key after `save`. -/
def record (saved : κ → Option β) (save : List (κ × β)) (k : κ) : Option β :=
  (Assoc.last? save k).or (saved k)

def step (s : State T D κ β ι) : Label T ι Call → Option (State T D κ β ι)
  | .start p call =>
    match s.procs p with
    | .idle =>
      let dict := W.load s.file
      some { s with procs := Function.update s.procs p (.holding dict (program call dict)) }
    | _ => none
  | .empty p =>
    match s.procs p with
    | .holding dict (save :: todo) =>
      some { s with
        file := none
        procs := Function.update s.procs p (.writing (assign W dict save) save todo) }
    | _ => none
  | .write p mixed =>
    match s.procs p with
    | .writing dict save todo =>
      match W.text dict with
      | some text =>
        some
          { file := if s.file.isNone then some text else mixed
            procs := Function.update s.procs p (.holding dict todo)
            saved := record s.saved save }
      | none => some { s with procs := Function.update s.procs p .idle }
    | _ => none
  | .finish p =>
    match s.procs p with
    | .holding _ [] => some { s with procs := Function.update s.procs p .idle }
    | _ => none

def system (ι : Type) [DecidableEq ι] : LTS (State T D κ β ι) (Label T ι Call) :=
  LTS.ofFn (fun s => (∀ p, s.procs p = .idle) ∧ ∀ k, s.saved k = W.get (W.load s.file) k)
    (step W program)

/-- No write is under way. -/
def Quiet (s : State T D κ β ι) : Prop := ∀ p, (s.procs p).isWriting = false

/-- The save begins when no other is under way, the keys it does not assign are as in the file,
and the dictionary can be written. -/
def Apart (s : State T D κ β ι) : Label T ι Call → Prop
  | .empty p => ∀ dict save todo, s.procs p = .holding dict (save :: todo) →
      Quiet s ∧ (W.text (assign W dict save)).isSome = true ∧
        ∀ k, Assoc.last? save k = none → W.get dict k = W.get (W.load s.file) k
  | _ => True

/-! ## What a save leaves -/

variable {W program} {s s' : State T D κ β ι} {p q : ι}

theorem get_assign (dict : D) (save : List (κ × β)) (k : κ) :
    W.get (assign W dict save) k = (Assoc.last? save k).or (W.get dict k) := by
  unfold assign
  induction save using List.reverseRecOn with
  | nil => rfl
  | append_singleton save w ih =>
    rw [List.foldl_append, List.foldl_cons, List.foldl_nil, W.get_set, ih,
      Assoc.last?_append_singleton]
    by_cases hk : k = w.1
    · rw [if_pos hk, if_pos hk.symm, Option.some_or]
    · rw [if_neg hk, if_neg (Ne.symm hk)]

/-! ## The invariant -/

/-- The file holds what was saved; while it is being written, the one writer's dictionary does. -/
structure Kept (W : DictFile T D κ β) (s : State T D κ β ι) : Prop where
  quiet : Quiet s → ∀ k, W.get (W.load s.file) k = s.saved k
  sole : ∀ p dict save todo, s.procs p = .writing dict save todo →
    s.file = none ∧ (W.text dict).isSome = true ∧
      (∀ k, W.get dict k = record s.saved save k) ∧ ∀ q, (s.procs q).isWriting = true → q = p

/-- A step that exchanges processes which do not write, and nothing else. -/
theorem Kept.exchange (hk : Kept W s) {proc : Proc D κ β} (hold : (s.procs p).isWriting = false)
    (hnew : proc.isWriting = false) :
    Kept W { s with procs := Function.update s.procs p proc } where
  quiet hq := hk.quiet fun q => (isWriting_update hold hnew q).symm.trans (hq q)
  sole q dict save todo hw := by
    obtain ⟨hfile, htext, hget, honly⟩ := hk.sole q dict save todo (writing_of_update hnew hw)
    refine ⟨hfile, htext, hget, fun q' hq' => honly q' ?_⟩
    rwa [isWriting_update hold hnew] at hq'

theorem Kept.empty (hk : Kept W s) {dict : D} {save : List (κ × β)}
    {todo : List (List (κ × β))} (hquiet : Quiet s)
    (htext : (W.text (assign W dict save)).isSome = true)
    (hsame : ∀ k, Assoc.last? save k = none → W.get dict k = W.get (W.load s.file) k) :
    Kept W { s with
      file := none
      procs := Function.update s.procs p (.writing (assign W dict save) save todo) } where
  quiet hq := by
    have hp : (Function.update s.procs p (.writing (assign W dict save) save todo) p).isWriting =
        false := hq p
    rw [Function.update_self] at hp
    cases hp
  sole q dict' save' todo' hw := by
    have honly : ∀ q, (Function.update s.procs p
        (.writing (assign W dict save) save todo) q).isWriting = true → q = p := by
      intro q hq
      by_contra hne
      rw [Function.update_of_ne hne, hquiet q] at hq
      cases hq
    replace hw : Function.update s.procs p (.writing (assign W dict save) save todo) q =
      .writing dict' save' todo' := hw
    have hqp : q = p := honly q (by rw [hw]; rfl)
    subst hqp
    rw [Function.update_self] at hw
    cases hw
    refine ⟨rfl, htext, fun k => ?_, honly⟩
    rw [get_assign]
    unfold record
    cases hlast : Assoc.last? save k with
    | none => rw [Option.none_or, Option.none_or, hsame k hlast, hk.quiet hquiet k]
    | some v => rfl

theorem Kept.write (hk : Kept W s) {dict : D} {save : List (κ × β)}
    {todo : List (List (κ × β))} {text : T} {mixed : Option T}
    (hp : s.procs p = .writing dict save todo) (htext : W.text dict = some text) :
    Kept W
      { file := if s.file.isNone then some text else mixed
        procs := Function.update s.procs p (.holding dict todo)
        saved := record s.saved save } := by
  obtain ⟨hfile, -, hget, honly⟩ := hk.sole p dict save todo hp
  have hquiet : ∀ q, (Function.update s.procs p (.holding dict todo) q).isWriting = false := by
    intro q
    by_cases hq : q = p
    · subst hq
      rw [Function.update_self]
      rfl
    · rw [Function.update_of_ne hq, Bool.eq_false_iff]
      exact fun hw => hq (honly q hw)
  refine ⟨fun _ k => ?_, fun q dict' save' todo' hw => ?_⟩
  · show W.get (W.load (if s.file.isNone then some text else mixed)) k = _
    rw [hfile, Option.isNone_none, if_pos rfl, W.load_text htext]
    exact hget k
  · replace hw : Function.update s.procs p (.holding dict todo) q = .writing dict' save' todo' := hw
    have hq := hquiet q
    rw [hw] at hq
    cases hq

theorem system_inductive : (system W program ι).InductiveOn (Apart W) (Kept W) where
  init s h := by
    obtain ⟨hidle, hsaved⟩ := h
    refine ⟨fun _ k => (hsaved k).symm, fun p dict save todo hw => ?_⟩
    rw [hidle p] at hw
    cases hw
  step s l s' hk hg hstep := by
    replace hstep : step W program s l = some s' := hstep
    cases l with
    | start p call =>
      dsimp only [step] at hstep
      split at hstep
      · rename_i hp
        cases hstep
        exact hk.exchange (by rw [hp]; rfl) rfl
      · cases hstep
    | empty p =>
      dsimp only [step] at hstep
      split at hstep
      · rename_i dict save todo hp
        cases hstep
        obtain ⟨hquiet, htext, hsame⟩ := hg dict save todo hp
        exact hk.empty hquiet htext hsame
      · cases hstep
    | write p mixed =>
      dsimp only [step] at hstep
      split at hstep
      · rename_i dict save todo hp
        split at hstep
        · rename_i text htext
          cases hstep
          exact hk.write hp htext
        · rename_i htext
          have hsome := (hk.sole p dict save todo hp).2.1
          rw [htext] at hsome
          cases hsome
      · cases hstep
    | finish p =>
      dsimp only [step] at hstep
      split at hstep
      · rename_i dict hp
        cases hstep
        exact hk.exchange (by rw [hp]; rfl) rfl
      · cases hstep

/-- As long as every save is apart, the file holds what was saved under every key. -/
theorem kept_of_reachable (h : (system W program ι).ReachableOn (Apart W) s) (hq : Quiet s)
    (k : κ) : W.get (W.load s.file) k = s.saved k := (system_inductive.reachable h).quiet hq k

/-! ## A process by itself -/

/-- What the saves of one process leave in the file, `none` when one of them fails. -/
def saveEach (W : DictFile T D κ β) : Option T → D → List (List (κ × β)) → Option (Option T)
  | file, _, [] => some file
  | _, dict, save :: todo =>
    match W.text (assign W dict save) with
    | some text => saveEach W (some text) (assign W dict save) todo
    | none => none

/-- The steps of a process that has loaded the file and makes its saves. -/
def savesOf (p : ι) : List (List (κ × β)) → List (Label T ι Call)
  | [] => [.finish p]
  | _ :: todo => .empty p :: .write p none :: savesOf p todo

/-- The saves of a process that no other runs into are apart, and leave what `saveEach` says. -/
theorem runOn_savesOf (W : DictFile T D κ β) (program : Call → D → List (List (κ × β)))
    {saves : List (List (κ × β))} {dict : D} {file : Option T}
    (hothers : ∀ q, q ≠ p → (s.procs q).isWriting = false) (hp : s.procs p = .holding dict saves)
    (hdict : W.load s.file = dict) (h : saveEach W s.file dict saves = some file) :
    ∃ s', (system W program ι).RunOn (Apart W) s (savesOf p saves) s' ∧ s'.file = file ∧
      s'.procs p = .idle ∧ ∀ q, q ≠ p → s'.procs q = s.procs q := by
  induction saves generalizing s dict with
  | nil =>
    cases h
    refine ⟨{ s with procs := Function.update s.procs p .idle }, .cons trivial ?_ (.nil _), rfl,
      ?_, ?_⟩
    · show step W program s (.finish p) = some _
      simp only [step, hp]
    · exact Function.update_self p .idle s.procs
    · exact fun q hq => Function.update_of_ne hq .idle s.procs
  | cons save todo ih =>
    unfold saveEach at h
    split at h
    · rename_i text htext
      let emptied : State T D κ β ι :=
        { s with
          file := none
          procs := Function.update s.procs p (.writing (assign W dict save) save todo) }
      let written : State T D κ β ι :=
        { file := some text
          procs := Function.update emptied.procs p (.holding (assign W dict save) todo)
          saved := record s.saved save }
      have hsame : ∀ q, q ≠ p → written.procs q = s.procs q := by
        intro q hq
        show Function.update (Function.update s.procs p _) p _ q = _
        rw [Function.update_of_ne hq, Function.update_of_ne hq]
      obtain ⟨s', hrun, hfile, hidle, hrest⟩ := ih (s := written)
        (fun q hq => by rw [hsame q hq]; exact hothers q hq) (Function.update_self p _ _)
        (W.load_text htext) h
      have hempty : step W program s (.empty p) = some emptied := by
        simp only [step, hp]
        rfl
      have hwrite : step W program emptied (.write p none) = some written := by
        simp only [step, emptied, written, Function.update_self, htext, Option.isNone_none,
          if_true]
      have hapart : Apart W s (.empty p : Label T ι Call) := by
        intro dict' save' todo' hp'
        cases hp.symm.trans hp'
        refine ⟨fun q => ?_, by rw [htext]; rfl, fun k _ => by rw [hdict]⟩
        by_cases hq : q = p
        · rw [hq, hp]
          rfl
        · exact hothers q hq
      exact ⟨s', .cons hapart hempty (.cons trivial hwrite hrun), hfile, hidle,
        fun q hq => (hrest q hq).trans (hsame q hq)⟩
    · cases h

/-- A call that starts when no other is under way, and runs to its end before one is. -/
theorem runOn_call (W : DictFile T D κ β) (program : Call → D → List (List (κ × β)))
    (call : Call) {file : Option T} (hquiet : Quiet s) (hp : s.procs p = .idle)
    (h : saveEach W s.file (W.load s.file) (program call (W.load s.file)) = some file) :
    ∃ s', (system W program ι).RunOn (Apart W) s
        (.start p call :: savesOf p (program call (W.load s.file))) s' ∧
      s'.file = file ∧ s'.procs p = .idle ∧ ∀ q, q ≠ p → s'.procs q = s.procs q := by
  let started : State T D κ β ι :=
    { s with
      procs := Function.update s.procs p
        (.holding (W.load s.file) (program call (W.load s.file))) }
  have hsame : ∀ q, q ≠ p → started.procs q = s.procs q := fun q hq => Function.update_of_ne hq _ _
  obtain ⟨s', hrun, hfile, hidle, hrest⟩ := runOn_savesOf W program (s := started)
    (fun q hq => by rw [hsame q hq]; exact hquiet q) (Function.update_self p _ _) rfl h
  refine ⟨s', .cons trivial ?_ hrun, hfile, hidle, fun q hq => (hrest q hq).trans (hsame q hq)⟩
  show step W program s (.start p call) = some started
  simp only [step, hp]
  rfl

end SharedFile

end OpenBrain.Core

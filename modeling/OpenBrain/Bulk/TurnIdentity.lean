import OpenBrain.Bulk.Formats
import OpenBrain.Bulk.Staging
import OpenBrain.Core.Result

/-!
# The ids of Codex turns

A prompt has an id derived from its whole record, an answer has the turn id Codex gave it. The same
answer is written twice, as the final `response_item` and as `task_complete`, each with the time it
was written at, and both become a turn of that id. `rollout_iff`: the turns of a rollout agree, and
the rollout is staged without a conflict over any older part of it, exactly when the records of one
turn id agree in time and text (`Consistent`).
-/
namespace OpenBrain.Bulk
open OpenBrain.Core OpenBrain.Core.Py List
open OpenBrain.Capture.Records (RawTurn TurnRole)

variable (L : Libraries)

/-! ## What the records say -/

inductive Answers (env : CodexEnvelope) : Str → Str → Prop
  | complete {turn_id answer : Str} :
    env.record_type = units "event_msg" →
    Members.get? env.payload (units "type") = some (.str (units "task_complete")) →
    Members.get? env.payload (units "turn_id") = some (.str turn_id) →
    Members.get? env.payload (units "last_agent_message") = some (.str answer) →
      Answers env turn_id answer
  | final {turn_id answer kind : Str} {metadata block : Items} :
    env.record_type = units "response_item" →
    Members.get? env.payload (units "type") = some (.str (units "message")) →
    Members.get? env.payload (units "role") = some (.str (units "assistant")) →
    Members.get? env.payload (units "phase") = some (.str (units "final_answer")) →
    Members.get? env.payload (units "internal_chat_message_metadata_passthrough") =
      some (.obj metadata) →
    Members.get? metadata (units "turn_id") = some (.str turn_id) →
    Members.get? env.payload (units "content") = some (.arr [.obj block]) →
    Members.get? block (units "type") = some (.str kind) →
    Members.get? block (units "text") = some (.str answer) → Answers env turn_id answer

/-- The record is a prompt, and its id is derived from the name. -/
inductive Asks (env : CodexEnvelope) (line : Str) : Option Str → Str → Str → Prop
  | event {session_ref : Option Str} {prompt : Str} :
    env.record_type = units "event_msg" →
    Members.get? env.payload (units "type") = some (.str (units "user_message")) →
    Members.get? env.payload (units "message") = some (.str prompt) →
      Asks env line session_ref
        (match session_ref with
          | none => strip line
          | some ref => ref ++ unit '\n' :: strip line)
        prompt
  | response {ref turn_id prompt kind : Str} {metadata block : Items} :
    env.record_type = units "response_item" →
    Members.get? env.payload (units "type") = some (.str (units "message")) →
    Members.get? env.payload (units "role") = some (.str (units "user")) →
    Members.get? env.payload (units "internal_chat_message_metadata_passthrough") =
      some (.obj metadata) →
    Members.get? metadata (units "content_item_kinds") = some (.arr [.str (units "user.text")]) →
    Members.get? metadata (units "turn_id") = some (.str turn_id) →
    Members.get? env.payload (units "content") = some (.arr [.obj block]) →
    Members.get? block (units "type") = some (.str kind) →
    Members.get? block (units "text") = some (.str prompt) →
      Asks env line (some ref) (ref ++ unit '\n' :: (turn_id ++ unit '\n' :: strip line)) prompt

/-- The turn of a record. -/
inductive Yields (env : CodexEnvelope) (line : Str) (session_ref : Option Str) : RawTurn → Prop
  | answer {turn_id answer : Str} : Answers env turn_id answer →
    Yields env line session_ref ⟨turn_id, answer, .assistant, false, some env.timestamp, none,
      session_ref, none, none, none⟩
  | prompt {name prompt : Str} : Asks env line session_ref name prompt →
    Yields env line session_ref ⟨codexUser L name, prompt, .user, true, some env.timestamp, none,
      session_ref, none, none, none⟩

/-! ## The adapter yields what the record says -/

variable {L} {line : Str} {session_ref : Option Str} {env : CodexEnvelope}

theorem isText_iff {value : Option PyJson} {s : Str} : isText value s = true ↔ value = some (.str s) := by
  unfold isText
  split <;> simp_all

theorem isUserText_iff {value : Option PyJson} :
    isUserText value = true ↔ value = some (.arr [.str (units "user.text")]) := by
  unfold isUserText
  split <;> simp_all

theorem text_of_get? {ms : Items} {key s : Str} (h : Members.get? ms key = some (.str s)) :
    text ms key = s := by
  rw [text, h]

theorem get?_of_text {ms : Items} {key : Str} (h : (text ms key).isEmpty = false) :
    Members.get? ms key = some (.str (text ms key)) := by
  unfold text at h ⊢
  split
  · rename_i heq
    exact heq
  · rename_i heq
    split at h
    · rename_i s hs
      exact absurd hs (heq s)
    · cases h

theorem blockText_some {expected_type s : Str} {content : Option PyJson}
    (h : blockText expected_type content = some s) : ∃ block,
      content = some (.arr [.obj block]) ∧
        Members.get? block (units "type") = some (.str expected_type) ∧
        Members.get? block (units "text") = some (.str s) := by
  unfold blockText at h
  split at h
  · rename_i block
    split at h
    · rename_i kind s' hk hs
      split at h
      · rename_i heq
        cases h
        exact ⟨block, rfl, heq ▸ hk, hs⟩
      · cases h
    · cases h
  · cases h

/-- The records of one kind the terminal's reader takes. -/
theorem yields_response {turn : RawTurn} (hkind : env.record_type = units "response_item")
    (h : codex_tui_response_turn L env line session_ref = .ok (some turn)) :
    Yields L env line session_ref turn := by
  simp only [codex_tui_response_turn] at h
  split at h
  · cases h
  · rename_i hmessage
    have hmessage := isText_iff.mp (by simpa using hmessage)
    split at h
    · rename_i metadata hmeta
      split at h
      · cases h
      · rename_i hspeaker
        split at h
        · cases h
        · rename_i ref
          split at h
          · cases h
          · rename_i hid
            have hid := get?_of_text (Bool.eq_false_iff.mpr hid)
            split at h
            · cases h
            · rename_i s hs
              obtain ⟨block, hcontent, hk, ht⟩ := blockText_some hs
              cases h
              rw [Bool.not_eq_true, Bool.not_eq_false'] at hspeaker
              rcases (Bool.or_eq_true _ _).mp hspeaker with hu | hf
              · simp only [hu, if_true]
                obtain ⟨hrole, hkinds⟩ := Bool.and_eq_true_iff.mp hu
                exact .prompt (.response hkind hmessage (isText_iff.mp hrole) hmeta
                  (isUserText_iff.mp hkinds) hid hcontent hk ht)
              · obtain ⟨hrole, hphase⟩ := Bool.and_eq_true_iff.mp hf
                have hrole := isText_iff.mp hrole
                have hu : isText (Members.get? env.payload (units "role")) (units "user") = false := by
                  rw [hrole]
                  decide
                simp only [hu, Bool.false_and, Bool.false_eq_true, if_false]
                exact .answer (.final hkind hmessage hrole (isText_iff.mp hphase) hmeta hid hcontent
                  hk ht)
    · cases h

theorem response_of_yields {turn : RawTurn} {o : Option RawTurn}
    (hkind : env.record_type = units "response_item")
    (h : codex_tui_response_turn L env line session_ref = .ok o)
    (hy : Yields L env line session_ref turn) : o = some turn := by
  have hother : units "response_item" ≠ units "event_msg" := by decide
  have hspeaker : (units "assistant" = units "user") = False := by simp; decide
  cases hy with
  | answer ha =>
    cases ha with
    | complete hevent => exact absurd (hkind.symm.trans hevent) hother
    | final _ hmessage hrole hphase hmeta hid hcontent hk ht =>
      simp only [codex_tui_response_turn, hmessage, hrole, hphase, hmeta, hcontent, hk, ht, isText,
        hspeaker, text_of_get? hid, blockText, decide_true, decide_false, Bool.not_true, Bool.and_true,
        Bool.false_and, Bool.false_or, Bool.false_eq_true, if_false] at h
      cases session_ref with
      | none => cases h
      | some ref =>
        simp only at h
        split at h
        · cases h
        · split at h
          · cases h
          · rename_i heq
            split at heq
            · cases heq
              cases h
              rfl
            · cases heq
  | prompt ha =>
    cases ha with
    | event hevent => exact absurd (hkind.symm.trans hevent) hother
    | response _ hmessage hrole hmeta hkinds hid hcontent hk ht =>
      simp only [codex_tui_response_turn, hmessage, hrole, hmeta, hcontent, hk, ht, isText,
        text_of_get? hid, blockText, isUserText, hkinds, decide_true, Bool.not_true, Bool.and_true,
        Bool.true_or, Bool.false_eq_true, if_false, if_true] at h
      split at h
      · cases h
      · split at h
        · cases h
        · rename_i heq
          split at heq
          · cases heq
            cases h
            rfl
          · cases heq

/-! ### Events -/

theorem field_of_locate {rules : List FieldRule} {ms : Items} (h : locate rules ms = [])
    {rule : FieldRule} (hrule : rule ∈ rules) (hreq : rule.required = true) :
    ∃ v, Members.get? ms rule.key = some v ∧ rule.check v = [] := by
  have hnil := flatMap_eq_nil_iff.mp h rule hrule
  cases hget : Members.get? ms rule.key with
  | none => simp [hget, hreq] at hnil
  | some v => exact ⟨v, rfl, by simpa [hget] using hnil⟩

theorem checkStr_nil {v : PyJson} (h : checkStr v = []) : ∃ s, v = .str s := by
  cases v <;> simp_all [checkStr]

theorem payload_ok {rules : List FieldRule} {event_type : Str} {ms : Items} {u : Unit}
    (h : payload rules event_type ms = .ok u) : locate rules ms = [] := by
  unfold payload at h
  split at h
  · assumption
  · cases h

theorem codex_user_turn_ok {o : Option RawTurn} (h : codex_user_turn L env line = .ok o) :
    ∃ prompt, Members.get? env.payload (units "message") = some (.str prompt) ∧
      o = some ⟨codexUser L (strip line), prompt, .user, true, some env.timestamp, none, none, none,
        none, none⟩ := by
  obtain ⟨u, hu, h⟩ := bind_ok h
  obtain ⟨v, hget, hv⟩ := field_of_locate (payload_ok hu)
    (show ⟨units "message", true, checkStr⟩ ∈ userMessageRules by simp [userMessageRules]) rfl
  obtain ⟨prompt, rfl⟩ := checkStr_nil hv
  cases h
  exact ⟨prompt, hget, by rw [text_of_get? hget]⟩

theorem codex_task_complete_turn_ok {o : Option RawTurn}
    (h : codex_task_complete_turn L env = .ok o) : ∃ turn_id,
      Members.get? env.payload (units "turn_id") = some (.str turn_id) ∧
      ((∃ answer, Members.get? env.payload (units "last_agent_message") = some (.str answer) ∧
          o = some ⟨turn_id, answer, .assistant, false, some env.timestamp, none, none, none, none,
            none⟩) ∨
        (∀ answer, Members.get? env.payload (units "last_agent_message") ≠ some (.str answer)) ∧
          o = none) := by
  obtain ⟨u, hu, h⟩ := bind_ok h
  obtain ⟨v, hget, hv⟩ := field_of_locate (payload_ok hu)
    (show ⟨units "turn_id", true, checkStr⟩ ∈ taskCompleteRules L by simp [taskCompleteRules]) rfl
  obtain ⟨turn_id, rfl⟩ := checkStr_nil hv
  refine ⟨turn_id, hget, ?_⟩
  rw [text_of_get? hget] at h
  split at h
  · rename_i answer hanswer
    split at h
    · cases h
    · cases h
      exact .inl ⟨answer, hanswer, rfl⟩
  · rename_i hnone
    cases h
    exact .inr ⟨fun answer heq => hnone answer heq, rfl⟩

/-- What the table makes of an event: the prompt, the answer, or no turn. -/
theorem codexEvent_ok {event_type : Str} {o : Option RawTurn}
    (h : codexEvent L event_type env line = .ok o) :
    event_type = units "user_message" ∧ codex_user_turn L env line = .ok o ∨
    event_type = units "task_complete" ∧ codex_task_complete_turn L env = .ok o ∨
    event_type ≠ units "user_message" ∧ event_type ≠ units "task_complete" ∧ o = none := by
  unfold codexEvent at h
  split at h
  · rename_i heq
    exact .inl ⟨heq, h⟩
  · rename_i huser
    split at h
    · rename_i heq
      obtain ⟨_, _, h⟩ := bind_ok h
      cases h
      exact .inr (.inr ⟨huser, by rw [heq]; decide, rfl⟩)
    · split at h
      · rename_i heq
        obtain ⟨_, _, h⟩ := bind_ok h
        cases h
        exact .inr (.inr ⟨huser, by rw [heq]; decide, rfl⟩)
      · split at h
        · rename_i heq
          exact .inr (.inl ⟨heq, h⟩)
        · rename_i hne
          cases h
          exact .inr (.inr ⟨huser, hne, rfl⟩)

/-! ### Lines -/

/-- What an accepted line went through. -/
theorem codex_line_ok {o : Option RawTurn}
    (h : codex_raw_turn_from_line L line session_ref = .ok o) :
    ∃ env, envelope L (units "envelope") line = .ok env ∧
      (env.record_type = units "response_item" ∧
          codex_tui_response_turn L env line session_ref = .ok o ∨
        env.record_type = units "event_msg" ∧ (∃ event_type turn,
          Members.get? env.payload (units "type") = some (.str event_type) ∧
          codexEvent L event_type env line = .ok turn ∧
          o = turn.map (inSession L event_type line session_ref)) ∨
        env.record_type ≠ units "response_item" ∧ env.record_type ≠ units "event_msg" ∧ o = none) := by
  unfold codex_raw_turn_from_line at h
  split at h
  · cases h
  · obtain ⟨env, henv, h⟩ := bind_ok h
    refine ⟨env, henv, ?_⟩
    split at h
    · rename_i hkind
      exact .inl ⟨hkind, h⟩
    · rename_i hresponse
      split at h
      · rename_i hevent
        cases h
        exact .inr (.inr ⟨hresponse, hevent, rfl⟩)
      · rename_i hevent
        split at h
        · rename_i event_type htype
          obtain ⟨turn, hturn, h⟩ := bind_ok h
          cases h
          exact .inr (.inl ⟨not_not.mp hevent, event_type, turn, htype, hturn, rfl⟩)
        · cases h

theorem yields_of_ok {turn : RawTurn}
    (h : codex_raw_turn_from_line L line session_ref = .ok (some turn)) :
    ∃ env, envelope L (units "envelope") line = .ok env ∧ Yields L env line session_ref turn := by
  obtain ⟨env, henv, ⟨hkind, h⟩ | ⟨hkind, event_type, turn', htype, hturn, ho⟩ | ⟨-, -, ho⟩⟩ :=
    codex_line_ok h
  · exact ⟨env, henv, yields_response hkind h⟩
  · refine ⟨env, henv, ?_⟩
    rcases codexEvent_ok hturn with ⟨rfl, hu⟩ | ⟨rfl, hc⟩ | ⟨-, -, rfl⟩
    · obtain ⟨prompt, hget, rfl⟩ := codex_user_turn_ok hu
      have hasks : Asks env line session_ref _ _ := .event hkind htype hget
      rw [Option.map_some, Option.some.injEq] at ho
      subst ho
      cases session_ref with
      | none => exact .prompt hasks
      | some ref =>
        rw [inSession, if_pos rfl]
        exact .prompt hasks
    · obtain ⟨turn_id, hid, ⟨answer, hanswer, rfl⟩ | ⟨-, rfl⟩⟩ := codex_task_complete_turn_ok hc
      · have hans := Answers.complete hkind htype hid hanswer
        rw [Option.map_some, Option.some.injEq] at ho
        subst ho
        cases session_ref with
        | none => exact .answer hans
        | some ref =>
          rw [inSession, if_neg (by decide)]
          exact .answer hans
      · cases ho
    · cases ho
  · cases ho

theorem ok_of_yields {turn : RawTurn} {o : Option RawTurn}
    (h : codex_raw_turn_from_line L line session_ref = .ok o)
    (henv : envelope L (units "envelope") line = .ok env)
    (hy : Yields L env line session_ref turn) : o = some turn := by
  have hother : units "response_item" ≠ units "event_msg" := by decide
  have hevents : units "task_complete" ≠ units "user_message" := by decide
  obtain ⟨env', henv', h⟩ := codex_line_ok h
  rw [henv] at henv'
  cases henv'
  rcases h with ⟨hkind, h⟩ | ⟨hkind, event_type, turn', htype, hturn, ho⟩ | ⟨hresponse, hevent, -⟩
  · exact response_of_yields hkind h hy
  · cases hy with
    | answer ha =>
      cases ha with
      | final hfinal => exact absurd (hfinal.symm.trans hkind) hother
      | complete _ ht hid hanswer =>
        rw [htype] at ht
        cases ht
        rcases codexEvent_ok hturn with ⟨heq, -⟩ | ⟨-, hc⟩ | ⟨-, hne, -⟩
        · exact absurd heq hevents
        · obtain ⟨turn_id, hid', ⟨answer, hanswer', rfl⟩ | ⟨hnone, -⟩⟩ :=
            codex_task_complete_turn_ok hc
          · rw [hid] at hid'
            cases hid'
            rw [hanswer] at hanswer'
            cases hanswer'
            rw [ho]
            cases session_ref with
            | none => rfl
            | some ref => simp [inSession, hevents]
          · exact absurd hanswer (hnone _)
        · exact absurd rfl hne
    | prompt ha =>
      cases ha with
      | response hresp => exact absurd (hresp.symm.trans hkind) hother
      | event _ ht hget =>
        rw [htype] at ht
        cases ht
        rcases codexEvent_ok hturn with ⟨-, hu⟩ | ⟨heq, -⟩ | ⟨hne, -, -⟩
        · obtain ⟨prompt, hget', rfl⟩ := codex_user_turn_ok hu
          rw [hget] at hget'
          cases hget'
          rw [ho]
          cases session_ref with
          | none => rfl
          | some ref => simp [inSession]
        · exact absurd heq.symm hevents
        · exact absurd rfl hne
  · cases hy with
    | answer ha =>
      cases ha with
      | complete hk => exact absurd hk hevent
      | final hk => exact absurd hk hresponse
    | prompt ha =>
      cases ha with
      | event hk => exact absurd hk hevent
      | response hk => exact absurd hk hresponse

/-! ## Lines of one record -/

/-- White space around a text is nothing to the parser. -/
def Blind (L : Libraries) : Prop :=
  ∀ l l' v v', strip l = strip l' → L.parse l = some v → L.parse l' = some v' → v = v'

theorem parse_of_envelope {record : Str} (h : envelope L record line = .ok env) :
    ∃ v, L.parse line = some v := by
  unfold envelope at h
  split at h
  · rename_i ms hms
    exact ⟨_, hms⟩
  · cases h

theorem parse_of_line_ok {o : Option RawTurn}
    (h : codex_raw_turn_from_line L line session_ref = .ok o) : ∃ v, L.parse line = some v := by
  obtain ⟨env, henv, -⟩ := codex_line_ok h
  exact parse_of_envelope henv

/-- The adapter sees a line through its parse and its stripped text. -/
theorem line_congr {line' : Str} (hs : strip line = strip line')
    (hp : L.parse line = L.parse line') :
    codex_raw_turn_from_line L line session_ref = codex_raw_turn_from_line L line' session_ref := by
  have htui : ∀ env, codex_tui_response_turn L env line session_ref =
      codex_tui_response_turn L env line' session_ref := by
    intro env
    simp only [codex_tui_response_turn, hs]
  have hevent : ∀ event_type env, codexEvent L event_type env line =
      codexEvent L event_type env line' := by
    intro event_type env
    simp only [codexEvent, codex_user_turn, hs]
  have hscope : ∀ event_type, inSession L event_type line session_ref =
      inSession L event_type line' session_ref := by
    intro event_type
    funext turn
    simp only [inSession, hs]
  simp only [codex_raw_turn_from_line, envelope, hs, hp, htui, hevent, hscope]

theorem not_mem_dropLast_splitAfter (p : UInt16 → Bool) {content : Str} (h : line ∈ splitAfter p content)
    {u : UInt16} (hu : u ∈ line.dropLast) : p u = false := by
  induction content generalizing line with
  | nil => cases h
  | cons w content ih =>
    rw [splitAfter_cons] at h
    split at h
    · rcases mem_cons.mp h with rfl | h
      · cases hu
      · exact ih h hu
    · rename_i hw
      rcases mem_cons.mp h with rfl | h
      · cases hs : splitAfter p content with
        | nil =>
          rw [hs] at hu
          cases hu
        | cons first lines =>
          rw [hs, head?_cons, Option.getD_some] at hu
          cases first with
          | nil => cases hu
          | cons x first =>
            rw [dropLast_cons_of_ne_nil (cons_ne_nil _ _)] at hu
            rcases mem_cons.mp hu with rfl | hu
            · exact Bool.eq_false_iff.mpr hw
            · exact ih (hs ▸ mem_cons_self) hu
      · exact ih (mem_of_mem_tail h) hu

theorem mem_dropLast_of_mem_strip {u : UInt16} (h : u ∈ strip line) (hu : isSpace u = true) :
    u ∈ line.dropLast := by
  unfold strip at h
  have hne := ne_nil_of_mem h
  have hlast := rdropWhile_last_not isSpace (line.dropWhile isSpace) hne
  obtain ⟨behind, hb⟩ := List.rdropWhile_prefix isSpace (line.dropWhile isSpace)
  obtain ⟨before, ha⟩ := dropWhile_suffix isSpace (l := line)
  generalize (line.dropWhile isSpace).rdropWhile isSpace = inner at h hne hlast hb
  have hmem : u ∈ inner.dropLast := by
    rw [← dropLast_append_getLast hne] at h
    rcases mem_append.mp h with h | h
    · exact h
    · rw [← mem_singleton.mp h] at hlast
      exact absurd hu hlast
  rw [← ha, ← hb]
  cases behind with
  | nil =>
    rw [append_nil, dropLast_append_of_ne_nil hne]
    exact mem_append_right _ hmem
  | cons v behind =>
    rw [dropLast_append_of_ne_nil (by simp), dropLast_append_of_ne_nil (by simp)]
    exact mem_append_right _ (mem_append_left _ h)

/-- A stripped line of a file has no line feed in it. -/
theorem newline_not_mem_strip {content : Str} (h : line ∈ fileLines content) :
    unit '\n' ∉ strip line := by
  intro hmem
  have hfalse := not_mem_dropLast_splitAfter _ h (mem_dropLast_of_mem_strip hmem (by decide))
  simp at hfalse

theorem eq_behind_last {u : UInt16} {s t a b : Str} (ha : u ∉ a) (hb : u ∉ b)
    (h : s ++ u :: a = t ++ u :: b) : a = b := by
  rcases append_eq_append_iff.mp h with ⟨c, -, hc⟩ | ⟨c, -, hc⟩
  · cases c with
    | nil => exact (List.cons.inj hc).2
    | cons v c =>
      rw [(List.cons.inj hc).2] at ha
      exact absurd (mem_append_right c mem_cons_self) ha
  · cases c with
    | nil => exact (List.cons.inj hc).2.symm
    | cons v c =>
      rw [(List.cons.inj hc).2] at hb
      exact absurd (mem_append_right c mem_cons_self) hb

theorem Asks.name_eq {name prompt : Str} (h : Asks env line session_ref name prompt) :
    (session_ref = none ∧ name = strip line) ∨ ∃ ref, session_ref = some ref ∧
      (name = ref ++ unit '\n' :: strip line ∨
        ∃ id, name = ref ++ unit '\n' :: (id ++ unit '\n' :: strip line)) := by
  cases h with
  | event =>
    cases session_ref with
    | none => exact .inl ⟨rfl, rfl⟩
    | some ref => exact .inr ⟨ref, rfl, .inl rfl⟩
  | response => exact .inr ⟨_, rfl, .inr ⟨_, rfl⟩⟩

theorem Asks.strip_eq {env' : CodexEnvelope} {line' name prompt prompt' : Str}
    (h : Asks env line session_ref name prompt) (h' : Asks env' line' session_ref name prompt')
    (hline : unit '\n' ∉ strip line) (hline' : unit '\n' ∉ strip line') :
    strip line = strip line' := by
  rcases h.name_eq with ⟨rfl, rfl⟩ | ⟨ref, rfl, hname⟩
  · rcases h'.name_eq with ⟨-, heq⟩ | ⟨ref, hsome, -⟩
    · exact heq
    · cases hsome
  · rcases h'.name_eq with ⟨hnone, -⟩ | ⟨ref', hsome, hname'⟩
    · cases hnone
    · cases hsome
      rcases hname with rfl | ⟨id, rfl⟩ <;> rcases hname' with heq | ⟨id', heq⟩ <;>
        have heq := (List.cons.inj (append_cancel_left heq)).2
      · exact heq
      · rw [heq] at hline
        exact absurd (mem_append_right id' mem_cons_self) hline
      · rw [← heq] at hline'
        exact absurd (mem_append_right id mem_cons_self) hline'
      · exact eq_behind_last hline hline' heq

/-! ## A file -/

theorem parsed_turns_ok {lines : List Str} {n : Nat} {turns : List RawTurn}
    (h : parsed_turns L session_ref n lines = .ok turns) :
    (∀ line ∈ lines, ∃ o, codex_raw_turn_from_line L line session_ref = .ok o) ∧
      ∀ turn, turn ∈ turns ↔
        ∃ line ∈ lines, codex_raw_turn_from_line L line session_ref = .ok (some turn) := by
  induction lines generalizing n turns with
  | nil =>
    cases h
    simp
  | cons line lines ih =>
    simp only [parsed_turns] at h
    split at h
    · cases h
    · rename_i o ho
      obtain ⟨rest, hrest, rfl⟩ := map_ok h
      obtain ⟨hall, hmem⟩ := ih hrest
      constructor
      · intro l hl
        rcases mem_cons.mp hl with rfl | hl
        · exact ⟨o, ho⟩
        · exact hall l hl
      · intro turn
        simp [hmem turn, ho, Option.mem_toList, eq_comm]

variable (L) in
def sessionOf (content : Str) : Option Str :=
  match fileLines content with
  | [] => none
  | line :: _ =>
    match codex_session_ref_if_present L line with
    | .ok session_ref => session_ref
    | .error _ => none

theorem parse_file_ok {content : Str} {turns : List RawTurn} (h : parse_file L content = .ok turns) :
    (∀ line ∈ fileLines content, ∃ o,
        codex_raw_turn_from_line L line (sessionOf L content) = .ok o) ∧
      ∀ turn, turn ∈ turns ↔ ∃ line ∈ fileLines content,
        codex_raw_turn_from_line L line (sessionOf L content) = .ok (some turn) := by
  unfold parse_file at h
  unfold sessionOf
  split at h
  · rename_i hnil
    cases h
    simp [hnil]
  · rename_i line lines hlines
    split at h
    · cases h
    · rename_i session_ref href
      simp only [hlines, href]
      exact parsed_turns_ok h

/-! ## When the ids agree -/

variable (L) in
def promptNames (content : Str) : Set Str :=
  {name | ∃ line ∈ fileLines content, ∃ env prompt, envelope L (units "envelope") line = .ok env ∧
    Asks env line (sessionOf L content) name prompt}

variable (L) in
/-- The records of a file agree: two answers of one turn have one time and one text, and no answer
has the id of a prompt. -/
structure Consistent (content : Str) : Prop where
  answers : ∀ line ∈ fileLines content, ∀ line' ∈ fileLines content, ∀ env env' turn_id answer answer',
    envelope L (units "envelope") line = .ok env → envelope L (units "envelope") line' = .ok env' →
    Answers env turn_id answer → Answers env' turn_id answer' →
      env.timestamp = env'.timestamp ∧ answer = answer'
  prompts : ∀ line ∈ fileLines content, ∀ env turn_id answer, ∀ name ∈ promptNames L content,
    envelope L (units "envelope") line = .ok env → Answers env turn_id answer →
      turn_id ≠ codexUser L name

theorem Consistent.of_agree {content : Str} {turns : List RawTurn}
    (h : parse_file L content = .ok turns) (ha : Agree RawTurn.turn_uuid turns) :
    Consistent L content := by
  obtain ⟨hall, hmem⟩ := parse_file_ok h
  have staged : ∀ line ∈ fileLines content, ∀ env turn,
      envelope L (units "envelope") line = .ok env →
      Yields L env line (sessionOf L content) turn → turn ∈ turns := by
    intro line hline env turn henv hy
    obtain ⟨o, ho⟩ := hall line hline
    have heq := ok_of_yields ho henv hy
    exact (hmem turn).mpr ⟨line, hline, heq ▸ ho⟩
  constructor
  · intro line hline line' hline' env env' turn_id answer answer' henv henv' hans hans'
    have heq := ha _ (staged line hline env _ henv (.answer hans)) _
      (staged line' hline' env' _ henv' (.answer hans')) rfl
    simp only [RawTurn.mk.injEq, Option.some.injEq] at heq
    exact ⟨heq.2.2.2.2.1, heq.2.1⟩
  · rintro line hline env turn_id answer name ⟨line', hline', env', prompt, henv', hasks⟩ henv hans heq
    have hturns := ha _ (staged line hline env _ henv (.answer hans)) _
      (staged line' hline' env' _ henv' (.prompt hasks)) heq
    simp at hturns

theorem Consistent.agree (hb : Blind L) {content : Str} {turns : List RawTurn}
    (h : parse_file L content = .ok turns) (hinj : Set.InjOn L.uuid5 (promptNames L content))
    (hc : Consistent L content) : Agree RawTurn.turn_uuid turns := by
  obtain ⟨-, hmem⟩ := parse_file_ok h
  intro a ha b hb' hu
  obtain ⟨line, hline, hla⟩ := (hmem a).mp ha
  obtain ⟨line', hline', hlb⟩ := (hmem b).mp hb'
  obtain ⟨env, henv, hya⟩ := yields_of_ok hla
  obtain ⟨env', henv', hyb⟩ := yields_of_ok hlb
  cases hya with
  | answer hans =>
    cases hyb with
    | answer hans' =>
      cases hu
      obtain ⟨ht, hs⟩ := hc.answers line hline line' hline' env env' _ _ _ henv henv' hans hans'
      rw [ht, hs]
    | prompt hasks' =>
      exact absurd hu
        (hc.prompts line hline env _ _ _ ⟨line', hline', env', _, henv', hasks'⟩ henv hans)
  | prompt hasks =>
    cases hyb with
    | answer hans' =>
      exact absurd hu.symm
        (hc.prompts line' hline' env' _ _ _ ⟨line, hline, env, _, henv, hasks⟩ henv' hans')
    | prompt hasks' =>
      have hname := hinj ⟨line, hline, env, _, henv, hasks⟩ ⟨line', hline', env', _, henv', hasks'⟩
        (append_cancel_left hu)
      subst hname
      have hstrip := hasks.strip_eq hasks' (newline_not_mem_strip hline) (newline_not_mem_strip hline')
      obtain ⟨v, hv⟩ := parse_of_envelope henv
      obtain ⟨v', hv'⟩ := parse_of_envelope henv'
      have hparse : L.parse line = L.parse line' := by rw [hv, hv', hb line line' v v' hstrip hv hv']
      rw [line_congr hstrip hparse, hlb] at hla
      exact (Option.some.inj (Except.ok.inj hla)).symm

/-! ## A rollout that grew -/

theorem session_ref_congr {line' : Str} (hp : L.parse line = L.parse line') :
    codex_session_ref_if_present L line = codex_session_ref_if_present L line' := by
  simp only [codex_session_ref_if_present, envelope, hp]

theorem older_subset (hb : Blind L) {content older : Str} {turns oldTurns : List RawTurn}
    (h : parse_file L content = .ok turns) (hold : parse_file L older = .ok oldTurns)
    (hpre : (fileLines older).map strip <+: (fileLines content).map strip) : oldTurns ⊆ turns := by
  obtain ⟨hall, hmem⟩ := parse_file_ok h
  obtain ⟨hall', hmem'⟩ := parse_file_ok hold
  have parsed : ∀ line ∈ fileLines older, ∀ line' ∈ fileLines content, strip line = strip line' →
      L.parse line = L.parse line' := by
    intro line hline line' hline' hstrip
    obtain ⟨o, ho⟩ := hall' line hline
    obtain ⟨o', ho'⟩ := hall line' hline'
    obtain ⟨v, hv⟩ := parse_of_line_ok ho
    obtain ⟨v', hv'⟩ := parse_of_line_ok ho'
    rw [hv, hv', hb line line' v v' hstrip hv hv']
  intro turn hturn
  obtain ⟨line, hline, hl⟩ := (hmem' turn).mp hturn
  -- the first records are the same, and so is the session
  have hsession : sessionOf L older = sessionOf L content := by
    unfold sessionOf
    cases hlines : fileLines older with
    | nil =>
      rw [hlines] at hline
      cases hline
    | cons first rest =>
      cases hlines' : fileLines content with
      | nil =>
        rw [hlines, hlines', map_cons, map_nil, prefix_nil] at hpre
        cases hpre
      | cons first' rest' =>
        rw [hlines, hlines', map_cons, map_cons, cons_prefix_cons] at hpre
        simp only
        rw [session_ref_congr (parsed first (hlines ▸ mem_cons_self) first'
          (hlines' ▸ mem_cons_self) hpre.1)]
  obtain ⟨line', hline', hstrip⟩ := mem_map.mp (hpre.subset (mem_map_of_mem hline))
  rw [hsession, line_congr hstrip.symm (parsed line hline line' hline' hstrip.symm)] at hl
  exact (hmem turn).mpr ⟨line', hline', hl⟩

/-- The turns of an accepted rollout agree, and it is staged without a conflict into a store that
holds turns of an older part of it, exactly when its records agree. -/
theorem rollout_iff (hb : Blind L) {content : Str} {turns : List RawTurn}
    (h : parse_file L content = .ok turns) (hinj : Set.InjOn L.uuid5 (promptNames L content)) :
    (Agree RawTurn.turn_uuid turns ↔ Consistent L content) ∧
    ∀ older oldTurns st, parse_file L older = .ok oldTurns →
      (fileLines older).map strip <+: (fileLines content).map strip →
      Distinct RawTurn.turn_uuid st → st.turns ⊆ oldTurns →
        ((stage RawTurn.turn_uuid st turns).isSome = true ↔ Consistent L content) := by
  have hagree : Agree RawTurn.turn_uuid turns ↔ Consistent L content :=
    ⟨Consistent.of_agree h, Consistent.agree hb h hinj⟩
  refine ⟨hagree, ?_⟩
  intro older oldTurns st hold hpre hd hst
  rw [stage_isSome_iff hd, ← hagree]
  apply Agree.congr
  intro turn
  rw [mem_append, or_iff_right_of_imp]
  exact fun hturn => older_subset hb h hold hpre (hst hturn)

/-! ## Runs -/

/-- Python's parser, an `int` that is one, and no two names with one id. -/
def plainLibraries : Libraries where
  parse := fun line => loadsText (strip line)
  isInt
    | .num (.int _) => true
    | _ => false
  uuid5 := id

theorem blind_plain : Blind plainLibraries := by
  intro l l' v v' hs h h'
  have h : loadsText (strip l) = some v := h
  rw [hs] at h
  exact Option.some.inj (h.symm.trans h')

/-- One line of a rollout. -/
def record (timestamp kind : Str) (payload : Items) : Str :=
  dumps (.obj [(units "timestamp", .str timestamp), (units "type", .str kind),
    (units "payload", .obj payload)]) ++ [unit '\n']

def answeredText : Str :=
  record (units "20:00:00Z") (units "session_meta")
      [(units "id", .str (units "s")), (units "session_id", .str (units "s"))] ++
    record (units "20:00:04Z") (units "response_item")
      [(units "type", .str (units "message")), (units "role", .str (units "assistant")),
        (units "phase", .str (units "final_answer")),
        (units "content", .arr [.obj [(units "type", .str (units "output_text")),
          (units "text", .str (units "reply"))]]),
        (units "internal_chat_message_metadata_passthrough",
          .obj [(units "turn_id", .str (units "t1"))])]

def completeText : Str :=
  record (units "20:00:05Z") (units "event_msg")
    [(units "type", .str (units "task_complete")), (units "turn_id", .str (units "t1")),
      (units "last_agent_message", .str (units "reply")), (units "started_at", .num (.int 1)),
      (units "completed_at", .num (.int 5)), (units "duration_ms", .num (.int 4000))]

/-- The turn of the answer with the time of a record. -/
def replyTurn (timestamp : Str) : RawTurn :=
  ⟨units "t1", units "reply", .assistant, false, some timestamp, none, some (units "s"), none, none,
    none⟩

theorem replyTurn_uuid (timestamp : Str) : (replyTurn timestamp).turn_uuid = units "t1" := rfl

theorem parse_answeredText : parse_file plainLibraries answeredText =
    .ok [replyTurn (units "20:00:04Z")] := by
  decide +kernel

/-- The rollout is accepted, its two records of the answer differ in their time, and staging it
raises, from the start and over the part without the second record. -/
theorem complete_conflicts : ∃ turns st n,
    parse_file plainLibraries (answeredText ++ completeText) = .ok turns ∧
    stage RawTurn.turn_uuid .empty [replyTurn (units "20:00:04Z")] = some (st, n) ∧
    ¬ Agree RawTurn.turn_uuid turns ∧ stage RawTurn.turn_uuid .empty turns = none ∧
    stage RawTurn.turn_uuid st turns = none := by
  have hparse : parse_file plainLibraries (answeredText ++ completeText) =
      .ok [replyTurn (units "20:00:04Z"),
        replyTurn (units "20:00:05Z")] := by
    decide +kernel
  refine ⟨_, ⟨[⟨0, replyTurn (units "20:00:04Z"), false⟩], []⟩, 1, hparse, by decide,
    ?_, by decide, by decide⟩
  intro hagree
  have heq := hagree (replyTurn (units "20:00:04Z")) mem_cons_self
    (replyTurn (units "20:00:05Z")) (mem_cons_of_mem _ mem_cons_self)
    (by rw [replyTurn_uuid, replyTurn_uuid])
  have htime := congrArg RawTurn.occurred_at heq
  revert htime
  decide

/-- Without the second record the rollout is staged. -/
theorem rollout_iff_answered : Consistent plainLibraries answeredText ∧
    (stage RawTurn.turn_uuid .empty [replyTurn (units "20:00:04Z")]).isSome = true := by
  have hiff := rollout_iff blind_plain parse_answeredText (Set.injOn_id _)
  have hc : Consistent plainLibraries answeredText := by
    apply hiff.1.mp
    intro a ha b hb _
    rw [mem_singleton.mp ha, mem_singleton.mp hb]
  have hempty : parse_file plainLibraries [] = .ok [] := rfl
  exact ⟨hc, (hiff.2 [] [] .empty hempty nil_prefix nodup_nil (List.Subset.refl _)).mpr hc⟩

end OpenBrain.Bulk

import OpenBrain.Provider.Gate.GateShell
import OpenBrain.Provider.Gate.Events

/-!
# The banners of a block (`gate_presentation.py`)

A banner carries the command that clears the block, with the payload and the path quoted as shell
words.
-/
namespace OpenBrain.Provider.Gate
open OpenBrain.Core OpenBrain.Core.Py

/-- mirrors gate_presentation.py:39-52 -/
structure PresentationContext where
  provider_script_path : Str
  disk : Disk
  cwd : Str

/-- The first activated provider when the configured one is not among them.
mirrors gate_presentation.py:83-88 -/
def preferred_provider (context : PresentationContext) : Str :=
  let activated := activated_provider_script_paths context.disk
  match activated with
  | [] => context.provider_script_path
  | first :: _ =>
    if activated.contains context.provider_script_path then context.provider_script_path else first

/-- The wired wrapper whose console script produces the event. mirrors gate_presentation.py:109-129 -/
def recovery_wrapper (event_name : Str) (context : PresentationContext) : Option (Str × Str) :=
  (wrapper_console_invocations context.disk).find? fun pair =>
    WRAPPER_CONSOLE_EVENTS.lookup pair.2 == some event_name

def wrapper_recovery_command (encoded : Str) (pair : Str × Str) : Str :=
  units "printf '%s' " ++ shell_quote encoded ++ units " | sh " ++ shell_quote pair.1 ++
    units " " ++ pair.2

def provider_recovery_command (event_name encoded preferred : Str) : Str :=
  units "printf '%s' " ++ shell_quote encoded ++ units " | bun " ++ shell_quote preferred ++
    units " --runtime claude --event " ++ event_name

/-- The wrapper the command names, `none` when it names a provider script. -/
def chosen_wrapper (event_name : Str) (context : PresentationContext) : Option (Str × Str) :=
  if (activated_provider_script_paths context.disk).isEmpty &&
      !context.disk.isFile (preferred_provider context) then
    recovery_wrapper event_name context
  else none

/-- mirrors gate_presentation.py:67-106 -/
def provider_payload_command (event_name : Str) (payload : Items)
    (context : PresentationContext) : Str :=
  let encoded := dumpsPlain (.obj payload)
  match chosen_wrapper event_name context with
  | some pair => wrapper_recovery_command encoded pair
  | none => provider_recovery_command event_name encoded (preferred_provider context)

def capture_payload (state : SessionState) (cwd : Str) : Items :=
  [(units "cwd", .str cwd), (units "session_id", .str state.session_id),
    (units "distilled", .obj [(units "content", .str (units "<distilled durable action only>")),
      (units "event_type", .str (units "action"))])]

def readback_payload (state : SessionState) (cwd : Str) : Items :=
  [(units "cwd", .str cwd), (units "session_id", .str state.session_id),
    (units "source", .str (units "compact")),
    (units "correlation_id", .str state.readback_correlation_id)]

def capture_command (state : SessionState) (context : PresentationContext) : Str :=
  provider_payload_command (units "capture") (capture_payload state context.cwd) context

def readback_command (state : SessionState) (context : PresentationContext) : Str :=
  provider_payload_command (units "session-start") (readback_payload state context.cwd) context

def bannerText (lines : List Str) : Str := joinSep (units "\n") lines

/-- mirrors gate_presentation.py:132-169 -/
def capture_banner (state : SessionState) (context : PresentationContext) : Str :=
  bannerText
    [units "<!-- OB Capture Gate -->",
      units "Work landed last turn but nothing was written to Open Brain. Task tools are",
      units "BLOCKED until you capture it — if it isn't in OB, it might as well not have",
      units "happened. Replace the placeholder with distilled durable content and run:",
      units "  " ++ capture_command state context,
      units "A direct saved receipt or durable spool clears capture. Read-only tools and",
      units "provider activity remain available; canonical ritual: _ob/skills/ob-checkpoint.",
      units "<!-- End OB Capture Gate -->"]

/-- mirrors gate_presentation.py:197-230 -/
def readback_banner (state : SessionState) (context : PresentationContext) : Str :=
  bannerText
    [units "<!-- Context Budget: forced post-compact read-back -->",
      units "A compact just happened. Task tools are BLOCKED until a fresh direct recall",
      units "receipt proves Open Brain was read (the built-in summary is not enough).",
      units "SessionStart:compact normally runs this automatically. If it did not, run:",
      units "  " ++ readback_command state context,
      units "A direct receipt unblocks the next gate check; fallback/failed recall does not.",
      units "<!-- End Context Budget -->"]

/-- A block: its reason, its banner and the command on the banner's fifth line. -/
structure Block where
  reason : Str
  banner : Str
  command : Str

/-- What the pre-tool-use check blocks with, for a tool call that is no checkpoint activity;
`none` when nothing is required. mirrors context_budget_gate.py:634-645 -/
def blockOf (state : SessionState) (context : PresentationContext) : Option Block :=
  if state.capture_required then
    some ⟨units "capture-required", capture_banner state context, capture_command state context⟩
  else if state.readback_required then
    some ⟨READBACK_REASON, readback_banner state context, readback_command state context⟩
  else none

end OpenBrain.Provider.Gate

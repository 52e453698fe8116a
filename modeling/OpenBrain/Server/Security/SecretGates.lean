import OpenBrain.Core.Regex

/-!
# The secret gate in both languages (`server/security/secret-patterns.ts`, `policy.py`)

The server's `SECRET_DETECTORS` and the client package's `SECRET_PATTERNS` are one list of patterns
kept twice and read by two engines. A text is its code points; ECMAScript counts the code points
beyond the first plane as two units. Python's `str.isalnum` is a parameter.
-/
namespace OpenBrain.Server.Security.SecretGates
open OpenBrain.Core.Regex List

/-! ## The engines -/

def space (x : Nat) : Bool :=
  (9 ≤ x && x ≤ 13) || x == 0x20 || x == 0xA0 || x == 0x1680 || (0x2000 ≤ x && x ≤ 0x200A) ||
    x == 0x2028 || x == 0x2029 || x == 0x202F || x == 0x205F || x == 0x3000

def lower (x : Nat) : Nat := if 65 ≤ x ∧ x ≤ 90 then x + 32 else x

def asciiWord (x : Nat) : Bool :=
  (48 ≤ x && x ≤ 57) || (65 ≤ x && x ≤ 90) || (97 ≤ x && x ≤ 122) || x == 95

/-- ECMAScript without the `u` flag: no letter beyond ASCII folds into it. -/
def ecma : Alphabet where
  space x := space x || x == 0xFEFF
  word := asciiWord
  lower := lower
  units x := if x < 0x10000 then 1 else 2

/-- Python's `re` over `str`. Four letters beyond ASCII fold into it. -/
def python (isalnum : Nat → Bool) : Alphabet where
  space x := space x || (0x1C ≤ x && x ≤ 0x1F) || x == 0x85
  word x := isalnum x || x == 95
  lower x :=
    if x = 0x130 ∨ x = 0x131 then 105 else if x = 0x17F then 115 else if x = 0x212A then 107
    else lower x
  units _ := 1

/-! ## The patterns -/

def cls (ranges : List (Nat × Nat)) : Core.Regex.Class := ⟨false, false, ranges⟩

/-- `[^\s…]` -/
def unspaced (s : String) : Core.Regex.Class := ⟨true, true, chars s⟩

def «A-Z» : Nat × Nat := (65, 90)
def «a-z» : Nat × Nat := (97, 122)
def «0-9» : Nat × Nat := (48, 57)

/-- `[A-Za-z0-9…]` -/
def alnumOr (s : String) : Core.Regex.Class := cls («A-Z» :: «a-z» :: «0-9» :: chars s)

def ws : Core.Regex.Class := ⟨false, true, []⟩

def dash_ : Pattern := opt (cls (chars "_-"))

/-- `\s*[:=]\s*` -/
def assigned : List Pattern := [star ws, one (cls (chars ":=")), star ws]

def exactly (n : Nat) (c : Core.Regex.Class) : Pattern := .many c n (some n) true

def atLeast (n : Nat) (c : Core.Regex.Class) : Pattern := .many c n none true

/-- `RegExp`: a source and the `i` flag. -/
structure RegExp where
  ignoreCase : Bool
  source : Pattern
  deriving DecidableEq

def AUTHORIZATION_BEARER : RegExp :=
  ⟨true, all ([lit "authorization"] ++ assigned ++
    [lit "bearer", plus ws, plus (unspaced ",;")])⟩

def BEARER_TOKEN : RegExp := ⟨true, all [lit "bearer", plus ws, atLeast 8 (alnumOr "._~+/=-")]⟩

def MCP_SESSION_ID : RegExp :=
  ⟨true, all ([lit "mcp-session-id"] ++ assigned ++ [plus (alnumOr "._:-")])⟩

def OPENAI_API_KEY : RegExp :=
  ⟨false, all [.boundary, lit "sk-", atLeast 10 (alnumOr "_-"), .boundary]⟩

def GITHUB_PAT : RegExp := ⟨true, all [lit "github_pat_", plus (alnumOr "_")]⟩

def GITHUB_TOKEN : RegExp :=
  ⟨true, all [lit "gh", one (cls (chars "pousr")), lit "_", atLeast 20 (alnumOr "_")]⟩

def AWS_ACCESS_KEY : RegExp :=
  ⟨false, all [.boundary, lit "A", one (cls (chars "KS")), lit "IA", exactly 16 (cls [«0-9», «A-Z»]),
    .boundary]⟩

/-- `[A-Za-z0-9/+=]` -/
def base64 : Core.Regex.Class := alnumOr "/+="

def AWS_SECRET_LIKE : RegExp :=
  ⟨false, all [.notBehind base64, .ahead (.seq (star base64) (one (cls [«A-Z»]))),
    .ahead (.seq (star base64) (one (cls [«a-z»]))), .ahead (.seq (star base64) (one (cls [«0-9»]))),
    .ahead (.seq (star base64) (one (cls (chars "/+=")))), exactly 40 base64, .notAhead base64]⟩

/-- `[_ -]?` -/
def dash_space : Pattern := opt (cls (chars "_ -"))

def AWS_SECRET_CONTEXT : RegExp :=
  ⟨true, all ([lit "aws", dash_space, .alt (lit "secret")
    (all [lit "secret", dash_space, lit "access", dash_space, lit "key"])] ++ assigned ++
      [exactly 40 base64])⟩

def SLACK_TOKEN : RegExp :=
  ⟨false, all [.boundary, lit "xox", one (cls (chars "baprs")), lit "-", atLeast 10 (alnumOr "-"),
    .boundary]⟩

def GOOGLE_API_KEY : RegExp :=
  ⟨false, all [.boundary, lit "AIza", exactly 35 (alnumOr "_-"), .boundary]⟩

def JWT_LIKE : RegExp :=
  ⟨false, all [.boundary, lit "eyJ", atLeast 8 (alnumOr "_-"), lit ".", atLeast 8 (alnumOr "_-"),
    lit ".", atLeast 8 (alnumOr "_-"), .boundary]⟩

/-- `(api[_-]?key|token|password|secret)` -/
def label : Pattern :=
  .alt (all [lit "api", dash_, lit "key"]) (oneOf ["token", "password", "secret"])

def LABELED_SECRET : RegExp := ⟨true, all ([label] ++ assigned ++ [plus (unspaced ",;")])⟩

def JSON_LABELED_SECRET : RegExp :=
  ⟨true, all [lit "\x22", label, lit "\x22", star ws, lit ":", star ws, lit "\x22",
    plus ⟨true, false, chars "\x22"⟩, lit "\x22"]⟩

/-- Every character, as `[\s\S]` or as the dot under `re.S`. -/
def anything : Core.Regex.Class := ⟨true, false, []⟩

def PRIVATE_KEY_BLOCK : RegExp :=
  ⟨false, all [lit "-----BEGIN ", star (cls [«A-Z», (32, 32)]), lit "PRIVATE KEY-----",
    .many anything 0 none false, lit "-----END ", star (cls [«A-Z», (32, 32)]),
    lit "PRIVATE KEY-----"]⟩

def STRIPE_KEY : RegExp :=
  ⟨false, all [.boundary, one (cls (chars "sprk")), lit "k_", oneOf ["live", "test"], lit "_",
    atLeast 16 (alnumOr ""), .boundary]⟩

/-- The schemes of `URL_SCHEME_ALT`, `https?` as its two words. mirrors policy.py:44-47 -/
def PYTHON_SCHEMES : List String :=
  ["https", "http", "ftp", "postgres", "postgresql", "mysql", "mariadb", "mongodb", "redis", "amqp",
    "amqps", "ssh", "sftp", "smtp", "smtps", "imap", "imaps", "ldap", "ldaps"]

/-- mirrors secret-patterns.ts:57-59 -/
def SERVER_SCHEMES : List String :=
  ["https", "http", "ftp", "postgres", "postgresql", "mysql", "mariadb", "mongodb", "redis", "amqp",
    "amqps", "nats", "tls", "ws", "wss", "ssh", "sftp", "smtp", "smtps", "imap", "imaps", "ldap",
    "ldaps"]

/-- `://user:pass@host` -/
def userinfo : Pattern :=
  all [lit "://", .many (unspaced ":@/") 1 (some 256) true, lit ":",
    .many (unspaced "@/") 1 (some 256) true, lit "@", plus (unspaced "/")]

/-- `URL_USERINFO_CRED_RE` over a scheme list. -/
def URL_USERINFO_CRED (schemes : List String) : RegExp := ⟨true, .seq (oneOf schemes) userinfo⟩

def LABELED_LONG_SECRET : RegExp :=
  ⟨true, all ([.alt (all [lit "client", dash_, lit "secret"])
    (.alt (all [lit "access", dash_, lit "token"]) (.alt (all [lit "refresh", dash_, lit "token"])
      (all [lit "private", dash_, lit "key"])))] ++ assigned ++ [atLeast 20 (alnumOr "._/+=-")])⟩

structure SecretPatternDetector where
  kind : String
  pattern : RegExp

/-- mirrors secret-patterns.ts:85-139 -/
def SECRET_DETECTORS : List SecretPatternDetector :=
  [⟨"authorization_bearer_header", AUTHORIZATION_BEARER⟩,
    ⟨"bearer_token", BEARER_TOKEN⟩,
    ⟨"mcp_session_id", MCP_SESSION_ID⟩,
    ⟨"openai_api_key", OPENAI_API_KEY⟩,
    ⟨"github_pat", GITHUB_PAT⟩,
    ⟨"github_token", GITHUB_TOKEN⟩,
    ⟨"aws_access_key_id", AWS_ACCESS_KEY⟩,
    ⟨"aws_secret_access_key", AWS_SECRET_CONTEXT⟩,
    ⟨"aws_secret_like", AWS_SECRET_LIKE⟩,
    ⟨"slack_token", SLACK_TOKEN⟩,
    ⟨"google_api_key", GOOGLE_API_KEY⟩,
    ⟨"jwt", JWT_LIKE⟩,
    ⟨"labeled_secret", LABELED_SECRET⟩,
    ⟨"json_labeled_secret", JSON_LABELED_SECRET⟩,
    ⟨"private_key_block", PRIVATE_KEY_BLOCK⟩,
    ⟨"stripe_key", STRIPE_KEY⟩,
    ⟨"url_userinfo_credential", URL_USERINFO_CRED SERVER_SCHEMES⟩,
    ⟨"labeled_long_secret", LABELED_LONG_SECRET⟩]

/-- mirrors policy.py:78-97 -/
def SECRET_PATTERNS : List RegExp :=
  [AUTHORIZATION_BEARER, BEARER_TOKEN, MCP_SESSION_ID, OPENAI_API_KEY, GITHUB_PAT, GITHUB_TOKEN,
    AWS_ACCESS_KEY, AWS_SECRET_CONTEXT, AWS_SECRET_LIKE, SLACK_TOKEN, GOOGLE_API_KEY, JWT_LIKE,
    LABELED_SECRET, JSON_LABELED_SECRET, PRIVATE_KEY_BLOCK, STRIPE_KEY,
    URL_USERINFO_CRED PYTHON_SCHEMES, LABELED_LONG_SECRET]

/-! ## The gates -/

def RegExp.test (R : Reading) (e : RegExp) (s : List Nat) : Bool := finds R e.ignoreCase e.source s

/-- mirrors sharing.ts:54-56 -/
def countMatches (e : RegExp) (s : List Nat) : Nat :=
  countFrom ecma.reading e.ignoreCase e.source 0 [] s

structure Detection where
  matched_kind : String
  span_count : Nat
  deriving DecidableEq

/-- The loop of `detectSecret`. -/
def detectIn (s : List Nat) : Option Detection → List SecretPatternDetector → Option Detection
  | found, [] => found
  | found, d :: ds =>
    if d.pattern.test ecma.reading s then
      detectIn s (some ⟨(found.map Detection.matched_kind).getD d.kind,
        (found.map Detection.span_count).getD 0 + countMatches d.pattern s⟩) ds
    else detectIn s found ds

/-- mirrors sharing.ts:58-71 -/
def detectSecret (s : List Nat) : Option Detection :=
  if s.isEmpty then none else detectIn s none SECRET_DETECTORS

/-- mirrors sharing.ts:78-80 -/
def containsSecret (s : List Nat) : Bool := (detectSecret s).isSome

def matchesSecret (isalnum : Nat → Bool) (s : List Nat) : Bool :=
  SECRET_PATTERNS.any fun e => e.test (python isalnum).reading s

/-! ## What the gates see -/

theorem isSome_detectIn {s : List Nat} {found : Option Detection} {ds : List SecretPatternDetector} :
    (detectIn s found ds).isSome = (found.isSome || ds.any fun d => d.pattern.test ecma.reading s) := by
  induction ds generalizing found with
  | nil => simp [detectIn]
  | cons d ds ih =>
    unfold detectIn
    split
    · rename_i hd
      simp [ih, hd]
    · rename_i hd
      simp [ih, hd]

/-- The server's gate is its list read by its engine; the early return on an empty text is none of
its patterns. -/
theorem containsSecret_eq (s : List Nat) :
    containsSecret s = SECRET_DETECTORS.any fun d => d.pattern.test ecma.reading s := by
  unfold containsSecret detectSecret
  cases s with
  | nil => decide +kernel
  | cons x s => simp [isSome_detectIn]

theorem test_mono {S : Nat → Prop} {R R' : Reading} {s : List Nat} (hR : Below S R R')
    (hs : ∀ x ∈ s, S x) {e : RegExp} (h : e.test R s = true) : e.test R' s = true :=
  finds_mono hR hs h

theorem test_schemes {R : Reading} {s : List Nat}
    (h : (URL_USERINFO_CRED PYTHON_SCHEMES).test R s = true) :
    (URL_USERINFO_CRED SERVER_SCHEMES).test R s = true :=
  finds_seq_mono (fun _ _ => rests_oneOf (by decide) (by decide)) h

theorem erase_url :
    (SECRET_DETECTORS.map SecretPatternDetector.pattern).erase (URL_USERINFO_CRED SERVER_SCHEMES) =
      SECRET_PATTERNS.erase (URL_USERINFO_CRED PYTHON_SCHEMES) := by
  decide +kernel

/-- Under one engine the server's list finds whatever the client's does. -/
theorem covered {R : Reading} {s : List Nat} {e : RegExp} (he : e ∈ SECRET_PATTERNS)
    (h : e.test R s = true) : ∃ d ∈ SECRET_DETECTORS, d.pattern.test R s = true := by
  by_cases hurl : e = URL_USERINFO_CRED PYTHON_SCHEMES
  · subst hurl
    exact ⟨⟨"url_userinfo_credential", URL_USERINFO_CRED SERVER_SCHEMES⟩, by simp [SECRET_DETECTORS],
      test_schemes h⟩
  · have hshared : e ∈ SECRET_PATTERNS.erase (URL_USERINFO_CRED PYTHON_SCHEMES) :=
      (mem_erase_of_ne hurl).mpr he
    rw [← erase_url] at hshared
    obtain ⟨d, hd, rfl⟩ := mem_map.mp (mem_of_mem_erase hshared)
    exact ⟨d, hd, h⟩

/-- A pattern of the client's list is found under what the two engines have in common. -/
def Shared (isalnum : Nat → Bool) (s : List Nat) : Prop :=
  ∃ e ∈ SECRET_PATTERNS, e.test (meet ecma.reading (python isalnum).reading) s = true

/-- A pattern of the server's list is found under what either engine allows. -/
def Conceivable (isalnum : Nat → Bool) (s : List Nat) : Prop :=
  ∃ d ∈ SECRET_DETECTORS, d.pattern.test (join ecma.reading (python isalnum).reading) s = true

instance (isalnum : Nat → Bool) (s : List Nat) : Decidable (Shared isalnum s) :=
  inferInstanceAs (Decidable (∃ e ∈ SECRET_PATTERNS, _))

section Gates
variable {isalnum : Nat → Bool} {s : List Nat}

/-- The two gates give the text one answer. -/
def Agree (isalnum : Nat → Bool) (s : List Nat) : Prop :=
  containsSecret s = true ↔ matchesSecret isalnum s = true

theorem matches_of_shared (h : Shared isalnum s) : matchesSecret isalnum s = true := by
  obtain ⟨e, he, hmeet⟩ := h
  exact any_eq_true.mpr ⟨e, he, test_mono (meet_right (fun _ => True) _ _)
    (fun _ _ => trivial) hmeet⟩

theorem contains_of_shared (h : Shared isalnum s) : containsSecret s = true := by
  obtain ⟨e, he, hmeet⟩ := h
  rw [containsSecret_eq, any_eq_true]
  exact covered he (test_mono (meet_left (fun _ => True) _ _) (fun _ _ => trivial) hmeet)

theorem conceivable_of_contains (h : containsSecret s = true) : Conceivable isalnum s := by
  rw [containsSecret_eq, any_eq_true] at h
  obtain ⟨d, hd, htest⟩ := h
  exact ⟨d, hd, test_mono (join_left (fun _ => True) _ _) (fun _ _ => trivial) htest⟩

theorem conceivable_of_matches (h : matchesSecret isalnum s = true) : Conceivable isalnum s := by
  obtain ⟨e, he, htest⟩ := any_eq_true.mp h
  exact covered he (test_mono (join_right (fun _ => True) _ _) (fun _ _ => trivial) htest)

/-- Both engines know every character of the text alike. -/
def Plain (isalnum : Nat → Bool) (s : List Nat) : Prop := ∀ x ∈ s, ecma.Alike (python isalnum) x

/-- On such a text the server's gate sees all that is conceivable. -/
theorem contains_of_conceivable (hs : Plain isalnum s) (h : Conceivable isalnum s) :
    containsSecret s = true := by
  obtain ⟨d, hd, hjoin⟩ := h
  have hpython : Below (ecma.Alike (python isalnum)) (python isalnum).reading ecma.reading :=
    (below_of_alike (python isalnum) ecma).of_imp fun _ hx => hx.symm
  rw [containsSecret_eq, any_eq_true]
  exact ⟨d, hd, test_mono ((Below.refl _ _).join hpython) hs hjoin⟩

/-- And the client's gate sees only what is shared. -/
theorem shared_of_matches (hs : Plain isalnum s) (h : matchesSecret isalnum s = true) :
    Shared isalnum s := by
  obtain ⟨e, he, htest⟩ := any_eq_true.mp h
  have hecma : Below (ecma.Alike (python isalnum)) (python isalnum).reading ecma.reading :=
    (below_of_alike (python isalnum) ecma).of_imp fun _ hx => hx.symm
  exact ⟨e, he, test_mono (hecma.meet (Below.refl _ _)) hs htest⟩

end Gates

/-- `str.isalnum` of ASCII. -/
def asciiAlnum (x : Nat) : Bool := asciiWord x && x != 95

def codes (s : String) : List Nat := s.toList.map Char.toNat

end OpenBrain.Server.Security.SecretGates

import Mathlib.Data.List.Dedup
import OpenBrain.Core.Utf8
import OpenBrain.Server.Capture.DropDiscovery
import OpenBrain.Server.Distill.ExchangeSweep
import OpenBrain.Server.SourceRegistry.Lifecycle

/-!
# Drop-folder collection (`server/capture/drop-folder-collector.ts`, `-ingest.ts`, `-durable.ts`)

A collection finds the files of an approved source, writes the text of each once under its hash, and
stamps the source with a digest of the hashes. A collection that meets the store an earlier one left,
over the same folder, finds every text and the stamp in place (`collectDropFolder_again`).
-/
namespace OpenBrain.Server.Capture
open OpenBrain.Core OpenBrain.Core.Ecma OpenBrain.Server.Auth OpenBrain.Server.Security List
open OpenBrain.Server.SourceRegistry

/-! ## The server -/

/-- What a collection uses of the process around it. `embedFn` answers `none` when it throws. -/
structure Host where
  V : Type
  toLowerCase : Str → Str
  sha256 : Str → Str
  resolve : Str → Str
  uuidText : Uuid → Str
  embedFn : Str → Option (Option V)
  embeddingModel : Str
  wire : Wire
  env : SharedNamespaceEnv

/-- A moment: `NOW()`, the text of `new Date()`, and the key a new row draws. -/
structure Moment where
  now : Int
  iso : Str
  id : Uuid

variable (host : Host)

/-- mirrors content-hash.ts:41-44 -/
def normalizedContentHash (text : Str) : Str :=
  Distill.normalizedContentHash ⟨Str, host.toLowerCase, host.sha256⟩ text

/-! ## Reading a file -/

inductive DropFileSkipReason where
  | too_large | total_bound | unreadable | empty
  deriving DecidableEq

structure ConfinedRead where
  content : Str
  byteLength : Nat

/-- mirrors drop-folder-read.ts:107-124 -/
def readBounded (content : Option (List UInt8)) (effectiveCap : Nat) :
    Except DropFileSkipReason ConfinedRead :=
  match content with
  | none => .error .unreadable
  | some bytes =>
    if effectiveCap < bytes.length then .error .too_large
    else .ok ⟨Utf8.decodeFrom Utf8.idle bytes, bytes.length⟩

/-- mirrors drop-folder-read.ts:126-165 -/
def readConfinedFile (fs : FileSystem) (file : DiscoveredFile) (perFileCap remainingTotal : Nat) :
    Except DropFileSkipReason ConfinedRead :=
  match fs.openNoFollow file.realPath with
  | none => .error .unreadable
  | some fh =>
    if (fh.stat.isFile && decide (fh.stat.dev = file.dev) && decide (fh.stat.ino = file.ino)) = false
    then .error .unreadable
    else if perFileCap < fh.size then .error .too_large
    else readBounded fh.content (min perFileCap remainingTotal)

/-! ## The table of thoughts -/

/-- A row of `thoughts`, as far as the collector reads and writes it. -/
structure Thought (V : Type) where
  id : Uuid
  ns : Str
  content : Str
  tags : Option (List Str)
  created_by : Str
  embedding : Option V
  content_hash : Option Str
  embedded_at : Option Int
  embedding_model : Option Str

/-- `content_hash = $1 AND namespace = $2` -/
def hashAt {V : Type} (hash ns : Str) (row : Thought V) : Bool :=
  decide (row.content_hash = some hash ∧ row.ns = ns)

/-- `existing || incoming`, each tag once; the order is left out. -/
def unionTags (existing : Option (List Str)) (incoming : List Str) : List Str :=
  (existing.getD [] ++ incoming).dedup

section Repository
variable (W : Wire) {V : Type} (rows : List (Thought V))

/-- `none` when a parameter is refused. mirrors drop-folder-repository.ts:55-61 -/
def findByContentHash (hash ns : Str) : Option (Option (Thought V)) := do
  let hash ← W.text hash
  let ns ← W.text ns
  some (rows.find? (hashAt hash ns))

/-- mirrors drop-folder-repository.ts:63-77 -/
def mergeTags (hash ns : Str) (tags : List Str) : Option (List (Thought V) × Option Uuid) := do
  let hash ← W.text hash
  let ns ← W.text ns
  let tags ← tags.mapM W.text
  some (Table.updateWhere (hashAt hash ns) (fun row => { row with tags := some (unionTags row.tags tags) })
    rows, (rows.find? (hashAt hash ns)).map Thought.id)

/-- mirrors drop-folder-repository.ts:39-48 -/
structure InsertValues (V : Type) where
  content : Str
  tags : List Str
  createdBy : Str
  ns : Str
  embedding : Option V
  hash : Str
  embeddedAt : Option Str
  embeddingModel : Option Str

structure DropFolderInsertRow where
  id : Uuid
  is_new : Bool

/-- mirrors drop-folder-repository.ts:79-105 -/
def insertContent (id : Uuid) (values : InsertValues V) :
    Option (List (Thought V) × Option DropFolderInsertRow) := do
  let hash ← W.text values.hash
  let ns ← W.text values.ns
  let tags ← values.tags.mapM W.text
  let content ← W.text values.content
  let created_by ← W.text values.createdBy
  let embedded_at ← SourceRegistry.optional W.timestamp values.embeddedAt
  let embedding_model ← SourceRegistry.optional W.text values.embeddingModel
  match rows.find? (hashAt hash ns) with
  | some row =>
    if tags ⊆ row.tags.getD [] then some (rows, none)
    else
      some (Table.updateWhere (hashAt hash ns)
        (fun row => { row with tags := some (unionTags row.tags tags) }) rows, some ⟨row.id, false⟩)
  | none =>
    some (rows ++ [⟨id, ns, content, some tags, created_by, values.embedding, some hash, embedded_at,
      embedding_model⟩], some ⟨id, true⟩)

/-- mirrors drop-folder-repository.ts:107-113 -/
def idByContentHash (hash ns : Str) : Option (Option Uuid) := do
  let hash ← W.text hash
  let ns ← W.text ns
  some ((rows.find? (hashAt hash ns)).map Thought.id)

end Repository

/-! ## The durable write -/

/-- What a collection does to the world. -/
inductive Effect where
  | embedded (text : Str)
  | inserted (id : Uuid)
  | tagged (id : Uuid)
  | stamped (id : Uuid)
  deriving DecidableEq

/-- mirrors drop-folder-durable.ts:24-32 -/
structure DurableWriteResult where
  id : Option Uuid
  merged : Bool
  mutated : Bool

structure DurableFile where
  content : Str
  hash : Str
  tags : List Str

/-- mirrors drop-folder-durable.ts:36-43 -/
def tagsAddSomething (existing incoming : List Str) : Bool :=
  incoming.any fun tag => !existing.contains tag

/-- What a write leaves: its result, the rows and what was done. -/
abbrev Written (host : Host) := DurableWriteResult × List (Thought host.V) × List Effect

section Durable
variable (auth : AuthInfo) (at' : Moment) (rows : List (Thought host.V)) (ns : Str) (file : DurableFile)

/-- mirrors drop-folder-durable.ts:77-94 -/
def mergeExistingTags (row : Thought host.V) : Option (Written host) :=
  if tagsAddSomething (row.tags.getD []) file.tags = false then
    some (⟨some row.id, true, false⟩, rows, [])
  else do
    let (rows, updated) ← mergeTags host.wire rows file.hash ns file.tags
    some (⟨some (updated.getD row.id), true, true⟩, rows, [.tagged (updated.getD row.id)])

/-- mirrors drop-folder-durable.ts:102-148 -/
def insertNewContent : Option (Written host) := do
  let textToEmbed := if file.tags = [] then file.content
    else file.content ++ unit '\n' :: joinSep [unit ' '] file.tags
  let embedding ← host.embedFn textToEmbed
  let (rows, inserted) ← insertContent host.wire rows at'.id {
    content := file.content, tags := file.tags, createdBy := auth.clientId, ns, embedding,
    hash := file.hash, embeddedAt := embedding.map fun _ => at'.iso,
    embeddingModel := embedding.map fun _ => host.embeddingModel }
  match inserted with
  | none => do
    let id ← idByContentHash host.wire rows file.hash ns
    some (⟨id, true, false⟩, rows, [.embedded textToEmbed])
  | some row =>
    some (⟨some row.id, !row.is_new, true⟩, rows,
      [.embedded textToEmbed, if row.is_new then .inserted row.id else .tagged row.id])

/-- mirrors drop-folder-durable.ts:150-164 -/
def writeDurableFile : Option (Written host) := do
  match ← findByContentHash host.wire rows file.hash ns with
  | some row => mergeExistingTags host rows ns file row
  | none => insertNewContent host auth at' rows ns file

end Durable

/-! ## One file -/

inductive DropFileStatus where
  | collected | deduped | skipped
  deriving DecidableEq

/-- mirrors drop-folder-contract.ts:117-133 -/
structure DropFileReceipt where
  status : DropFileStatus
  file_token : Str
  content_hash : Option Str
  byte_length : Option Nat
  durable_id : Option Uuid
  durable_merged : Option Bool
  reason : Option DropFileSkipReason

/-- mirrors drop-folder-ingest.ts:25-38 -/
structure IngestTotals where
  files : List DropFileReceipt
  observedHashes : List Str
  manifestParts : List Str
  collected : Nat
  deduped : Nat
  skipped : Nat
  totalBytes : Nat

def emptyIngestTotals : IngestTotals := ⟨[], [], [], 0, 0, 0, 0⟩

/-- mirrors drop-folder-contract.ts:30-48 -/
structure DropCollectorBounds where
  files : Nat
  fileBytes : Nat
  totalBytes : Nat
  depth : Nat
  scanEntries : Option Nat

/-- mirrors drop-folder-ingest.ts:53-59 -/
structure IngestContext where
  fs : FileSystem
  auth : AuthInfo
  at' : Moment
  ns : Str
  tags : List Str
  bounds : DropCollectorBounds

/-- mirrors drop-folder-ingest.ts:61-68 -/
def recordSkip (totals : IngestTotals) (file_token : Str) (reason : DropFileSkipReason) :
    IngestTotals :=
  { totals with
    files := totals.files ++ [⟨.skipped, file_token, none, none, none, none, some reason⟩]
    skipped := totals.skipped + 1 }

/-- What a file comes to before anything is written; `bytes` is what was read of it. -/
inductive Disposition where
  | skip (reason : DropFileSkipReason) (bytes : Nat)
  | repeated (hash : Str) (bytes : Nat)
  | fresh (content hash : Str) (bytes : Nat)

/-- mirrors drop-folder-ingest.ts:81-131 -/
def disposition (ctx : IngestContext) (totals : IngestTotals) (file : DiscoveredFile) : Disposition :=
  if ctx.bounds.totalBytes ≤ totals.totalBytes then .skip .total_bound 0
  else
    let remainingTotal := ctx.bounds.totalBytes - totals.totalBytes
    match readConfinedFile ctx.fs file ctx.bounds.fileBytes remainingTotal with
    | .error reason =>
      .skip (if reason = .too_large ∧ remainingTotal < ctx.bounds.fileBytes then .total_bound
        else reason) 0
    | .ok read =>
      if trim read.content = [] then .skip .empty read.byteLength
      else
        let hash := normalizedContentHash host read.content
        if hash ∈ totals.observedHashes then .repeated hash read.byteLength
        else .fresh read.content hash read.byteLength

/-- The totals, the rows and what was done so far. -/
structure Ingest (host : Host) where
  totals : IngestTotals
  thoughts : List (Thought host.V)
  effects : List Effect

/-- mirrors drop-folder-ingest.ts:76-162 -/
def ingestOneFile (ctx : IngestContext) (s : Ingest host) (file : DiscoveredFile) :
    Option (Ingest host) :=
  let file_token := normalizedContentHash host file.relPath
  match disposition host ctx s.totals file with
  | .skip reason bytes =>
    some { s with
      totals := recordSkip { s.totals with totalBytes := s.totals.totalBytes + bytes } file_token reason }
  | .repeated hash bytes =>
    some { s with
      totals := { s.totals with
        files := s.totals.files ++ [⟨.deduped, file_token, some hash, some bytes, none, none, none⟩]
        deduped := s.totals.deduped + 1
        totalBytes := s.totals.totalBytes + bytes } }
  | .fresh content hash bytes => do
    let (durable, thoughts, effects) ←
      writeDurableFile host ctx.auth ctx.at' s.thoughts ctx.ns ⟨content, hash, ctx.tags⟩
    let status := if durable.merged then .deduped else .collected
    some {
      totals := {
        files := s.totals.files ++
          [⟨status, file_token, some hash, some bytes, durable.id, some durable.merged, none⟩]
        observedHashes := s.totals.observedHashes ++ [hash]
        manifestParts := s.totals.manifestParts ++ [hash]
        collected := if durable.merged then s.totals.collected else s.totals.collected + 1
        deduped := if durable.merged then s.totals.deduped + 1 else s.totals.deduped
        skipped := s.totals.skipped
        totalBytes := s.totals.totalBytes + bytes }
      thoughts
      effects := s.effects ++ effects }

/-! ## A collection -/

structure Store (V : Type) where
  thoughts : List (Thought V)
  sources : List SourceRecord

/-- mirrors drop-folder-contract.ts:89-99 -/
structure CollectDropFolderInput where
  external_id : Str
  target_namespace : Option Str
  tags : List Str

inductive CollectCode where
  | not_found | approval_denied | namespace_denied | no_root | root_unavailable
  deriving DecidableEq

/-- mirrors drop-folder-contract.ts:137-165 -/
structure CollectDropFolderResult where
  ok : Bool
  eligible : Bool
  code : Option CollectCode
  ns : Option Str
  files : List DropFileReceipt
  collected : Nat
  deduped : Nat
  skipped : Nat
  truncated : Bool

/-- What answers without touching the folder. -/
def refused (eligible : Bool) (code : CollectCode) (ns : Option Str) : CollectDropFolderResult :=
  ⟨false, eligible, some code, ns, [], 0, 0, 0, false⟩

section Collect
variable (auth : AuthInfo) (input : CollectDropFolderInput)

/-- `none` when the gate throws. mirrors drop-folder-eligibility.ts:27-70 -/
def resolveEligibleDropSource (sources : List SourceRecord) :
    Option (Except CollectCode (SourceRecord × Str)) :=
  match resolveIngestionEligibility host.wire host.env auth .drop input.external_id
    input.target_namespace sources with
  | .threw => none
  | .refused code _ =>
    some (.error (match code with
      | .approval_denied => .approval_denied
      | .namespace_denied => .namespace_denied
      | _ => .not_found))
  | .ok record =>
    let ns := physicalNamespace record.ns host.env
    if (canWriteNamespace host.env auth ns).allowed = false then some (.error .namespace_denied)
    else some (.ok (record, ns))

/-- mirrors drop-folder-eligibility.ts:76-86 -/
def configuredRoot (record : SourceRecord) : Option Str :=
  match record.config with
  | .obj members =>
    match Members.get? members (units "root") with
    | some (.str raw) =>
      let trimmed := trim raw
      if trimmed = [] then none
      else
        let resolved := host.resolve trimmed
        if resolved ≠ trimmed ∧ trimmed.head? ≠ some (unit '/') then none else some resolved
    | _ => none
  | _ => none

def stampInput (iso : Str) (source : SourceRecord) (manifestHash : Str) : UpdateSourceInput where
  id := host.uuidText source.id
  target_namespace := input.target_namespace
  expected_revision := source.revision
  title := none
  scope := none
  language := none
  config := none
  lifecycle_state := none
  sync_state := some .synced
  content_hash := some (some manifestHash)
  last_synced_at := some (some iso)
  approval_state := none

/-- mirrors drop-folder-collector.ts:107-131 -/
def stampManifest (at' : Moment) (source : SourceRecord) (manifestParts : List Str)
    (sources : List SourceRecord) : Option (List SourceRecord × List Effect) :=
  if manifestParts = [] then some (sources, [])
  else
    let manifestHash := normalizedContentHash host (joinSep [unit '\n'] manifestParts)
    if some manifestHash = source.content_hash then some (sources, [])
    else
      match updateSource host.wire host.env auth (stampInput host input at'.iso source manifestHash)
        sources at'.now with
      | (.done .threw, _) => none
      | (.done (.refused _ _), _) => some (sources, [])
      | (.done (.ok record), change) => some (change.apply sources, [.stamped record.id])
      | (.next (.updateMiss id ns), _) =>
        match diagnoseUpdateMiss host.wire sources id ns with
        | .threw => none
        | _ => some (sources, [])
      | (.next _, _) => none

/-- `none` when it throws. mirrors drop-folder-collector.ts:133-242 -/
def collectDropFolder (fs : FileSystem) (bounds : DropCollectorBounds) (at' : Moment)
    (store : Store host.V) :
    Option (CollectDropFolderResult × Store host.V × List Effect) := do
  match ← resolveEligibleDropSource host auth input store.sources with
  | .error code => some (refused false code none, store, [])
  | .ok (source, ns) =>
    match configuredRoot host source with
    | none => some (refused true .no_root (some ns), store, [])
    | some configuredPath =>
      match (fs.realpath configuredPath).bind fun realRoot =>
        (fs.stat realRoot).bind fun st => if st.isDirectory then some realRoot else none with
      | none => some (refused true .root_unavailable (some ns), store, [])
      | some realRoot =>
        let discovered := discoverFiles
          ⟨host.toLowerCase, fs, realRoot, bounds.files, ⟨bounds.depth, bounds.scanEntries⟩⟩
        let s ← discovered.files.foldlM
          (ingestOneFile host ⟨fs, auth, at', ns, input.tags, bounds⟩)
          ⟨emptyIngestTotals, store.thoughts, []⟩
        let (sources, stamped) ←
          stampManifest host auth input at' source s.totals.manifestParts store.sources
        some (⟨true, true, none, some source.ns, s.totals.files, s.totals.collected,
          s.totals.deduped, s.totals.skipped, discovered.truncated⟩, ⟨s.thoughts, sources⟩,
          s.effects ++ stamped)

end Collect

/-! ## Rows that are kept -/

section Rows
variable {host} {V : Type} {rows rows' : List (Thought V)} {hash ns : Str}

/-- Whatever row a hash and a namespace found, they find with no tag less. -/
def Grows (rows rows' : List (Thought V)) : Prop :=
  ∀ hash ns row, rows.find? (hashAt hash ns) = some row →
    ∃ row', rows'.find? (hashAt hash ns) = some row' ∧ row.tags.getD [] ⊆ row'.tags.getD []

theorem Grows.refl (rows : List (Thought V)) : Grows rows rows :=
  fun _ _ row h => ⟨row, h, List.Subset.refl _⟩

theorem Grows.trans {rows'' : List (Thought V)} (h : Grows rows rows') (h' : Grows rows' rows'') :
    Grows rows rows'' := by
  intro hash ns row hrow
  obtain ⟨row', hrow', hsub⟩ := h hash ns row hrow
  obtain ⟨row'', hrow'', hsub'⟩ := h' hash ns row' hrow'
  exact ⟨row'', hrow'', fun tag htag => hsub' (hsub htag)⟩

theorem find?_tagged (p : Thought V → Bool) (tags : List Str) :
    (Table.updateWhere p (fun row => { row with tags := some (unionTags row.tags tags) })
      rows).find? (hashAt hash ns) = (rows.find? (hashAt hash ns)).map fun row =>
        if p row then { row with tags := some (unionTags row.tags tags) } else row :=
  Table.find?_updateWhere fun _ _ => rfl

theorem mem_unionTags {existing : Option (List Str)} {incoming : List Str} {tag : Str} :
    tag ∈ unionTags existing incoming ↔ tag ∈ existing.getD [] ∨ tag ∈ incoming := by
  rw [unionTags, mem_dedup, mem_append]

theorem grows_tagged (p : Thought V → Bool) (tags : List Str) : Grows rows
    (Table.updateWhere p (fun row => { row with tags := some (unionTags row.tags tags) }) rows) := by
  intro hash ns row hrow
  refine ⟨_, by rw [find?_tagged, hrow, Option.map_some], fun tag htag => ?_⟩
  split
  · exact mem_unionTags.mpr (.inl htag)
  · exact htag

theorem grows_append (new : Thought V) : Grows rows (rows ++ [new]) := by
  intro hash ns row hrow
  exact ⟨row, by rw [find?_append, hrow]; rfl, List.Subset.refl _⟩

def Settled (W : Wire) (ns : Str) (tags : List Str) (rows : List (Thought V)) (hash : Str) : Prop :=
  ∃ h n row, W.text hash = some h ∧ W.text ns = some n ∧ rows.find? (hashAt h n) = some row ∧
    tags ⊆ row.tags.getD []

theorem Settled.grows {W : Wire} {tags : List Str} (h : Settled W ns tags rows hash)
    (hgrows : Grows rows rows') : Settled W ns tags rows' hash := by
  obtain ⟨h, n, row, hh, hn, hrow, htags⟩ := h
  obtain ⟨row', hrow', hsub⟩ := hgrows h n row hrow
  exact ⟨h, n, row', hh, hn, hrow', fun tag htag => hsub (htags htag)⟩

theorem mapM_text {W : Wire} {tags tags' : List Str} (hplain : ∀ tag ∈ tags, ∀ t,
    W.text tag = some t → t = tag) (h : tags.mapM W.text = some tags') : tags' = tags := by
  induction tags generalizing tags' with
  | nil =>
    rw [mapM_nil] at h
    exact (Option.some.inj h).symm
  | cons tag tags ih =>
    rw [mapM_cons] at h
    obtain ⟨t, ht, h⟩ := Option.bind_eq_some_iff.mp h
    obtain ⟨ts, hts, h⟩ := Option.bind_eq_some_iff.mp h
    rw [← Option.some.inj h, hplain tag mem_cons_self t ht,
      ih (fun tag htag => hplain tag (mem_cons_of_mem _ htag)) hts]

end Rows

/-! ## Writing a text, and writing it again -/

section Writing
variable {host} {auth : AuthInfo} {at' : Moment} {rows : List (Thought host.V)} {ns : Str}
  {file : DurableFile}

theorem tagsAddSomething_eq_false {existing incoming : List Str} :
    tagsAddSomething existing incoming = false ↔ incoming ⊆ existing := by
  unfold tagsAddSomething
  rw [any_eq_false]
  simp [subset_def]

/-- A text that is there is left alone. -/
theorem writeDurableFile_of_settled (h : Settled host.wire ns file.tags rows file.hash) :
    ∃ id, writeDurableFile host auth at' rows ns file = some (⟨some id, true, false⟩, rows, []) := by
  obtain ⟨h, n, row, hh, hn, hrow, htags⟩ := h
  refine ⟨row.id, ?_⟩
  simp only [writeDurableFile, findByContentHash, hh, hn, Option.bind_eq_bind, Option.bind_some, hrow]
  rw [mergeExistingTags, if_pos (tagsAddSomething_eq_false.mpr htags)]

theorem insertContent_settles {id : Uuid} {values : InsertValues host.V}
    {rows' : List (Thought host.V)} {inserted : Option DropFolderInsertRow}
    (hplain : ∀ tag ∈ values.tags, ∀ t, host.wire.text tag = some t → t = tag)
    (h : insertContent host.wire rows id values = some (rows', inserted)) :
    Grows rows rows' ∧ Settled host.wire values.ns values.tags rows' values.hash := by
  unfold insertContent at h
  obtain ⟨hash, hhash, h⟩ := Option.bind_eq_some_iff.mp h
  obtain ⟨n, hn, h⟩ := Option.bind_eq_some_iff.mp h
  obtain ⟨tags, htags, h⟩ := Option.bind_eq_some_iff.mp h
  obtain ⟨content, -, h⟩ := Option.bind_eq_some_iff.mp h
  obtain ⟨created_by, -, h⟩ := Option.bind_eq_some_iff.mp h
  obtain ⟨embedded_at, -, h⟩ := Option.bind_eq_some_iff.mp h
  obtain ⟨embedding_model, -, h⟩ := Option.bind_eq_some_iff.mp h
  obtain rfl := mapM_text hplain htags
  split at h
  · rename_i row hrow
    split at h
    · rename_i hsub
      cases h
      exact ⟨.refl _, hash, n, row, hhash, hn, hrow, hsub⟩
    · cases h
      refine ⟨grows_tagged _ _, hash, n, _, hhash, hn, by rw [find?_tagged, hrow, Option.map_some], ?_⟩
      rw [if_pos (find?_some hrow)]
      exact fun tag htag => mem_unionTags.mpr (.inr htag)
  · rename_i hnone
    cases h
    refine ⟨grows_append _, hash, n, _, hhash, hn, by
      rw [find?_append, hnone, Option.none_or, find?_cons_of_pos (by simp [hashAt])], ?_⟩
    exact fun tag htag => htag

theorem writeDurableFile_settles {written : Written host}
    (hplain : ∀ tag ∈ file.tags, ∀ t, host.wire.text tag = some t → t = tag)
    (h : writeDurableFile host auth at' rows ns file = some written) :
    Grows rows written.2.1 ∧ Settled host.wire ns file.tags written.2.1 file.hash := by
  unfold writeDurableFile at h
  obtain ⟨existing, hprobe, h⟩ := Option.bind_eq_some_iff.mp h
  cases existing with
  | none =>
    obtain ⟨embedding, -, h⟩ := Option.bind_eq_some_iff.mp h
    obtain ⟨⟨rows', inserted⟩, hinsert, h⟩ := Option.bind_eq_some_iff.mp h
    have hsettles := insertContent_settles hplain hinsert
    cases inserted with
    | none =>
      obtain ⟨id, -, h⟩ := Option.bind_eq_some_iff.mp h
      cases h
      exact hsettles
    | some row =>
      cases h
      exact hsettles
  | some row =>
    obtain ⟨hash, hhash, hprobe⟩ := Option.bind_eq_some_iff.mp hprobe
    obtain ⟨n, hn, hprobe⟩ := Option.bind_eq_some_iff.mp hprobe
    have hrow := Option.some.inj hprobe
    dsimp only at h
    unfold mergeExistingTags at h
    split at h
    · rename_i hadds
      cases h
      exact ⟨.refl _, hash, n, row, hhash, hn, hrow, tagsAddSomething_eq_false.mp hadds⟩
    · obtain ⟨⟨rows', updated⟩, hmerge, h⟩ := Option.bind_eq_some_iff.mp h
      cases h
      unfold mergeTags at hmerge
      simp only [hhash, hn, Option.bind_eq_bind, Option.bind_some] at hmerge
      obtain ⟨tags, htags, hmerge⟩ := Option.bind_eq_some_iff.mp hmerge
      obtain rfl := mapM_text hplain htags
      cases hmerge
      refine ⟨grows_tagged _ _, hash, n, _, hhash, hn, by rw [find?_tagged, hrow, Option.map_some], ?_⟩
      rw [if_pos (find?_some hrow)]
      exact fun tag htag => mem_unionTags.mpr (.inr htag)

end Writing

/-! ## The files of a folder, and the same files again -/

section Files
variable {host} {ctx ctx' : IngestContext} {files : List DiscoveredFile} {s s' t : Ingest host}

/-- What a file comes to is told by these. -/
structure Abreast (s t : Ingest host) : Prop where
  observed : s.totals.observedHashes = t.totals.observedHashes
  manifest : s.totals.manifestParts = t.totals.manifestParts
  bytes : s.totals.totalBytes = t.totals.totalBytes

/-- The collections read one folder for one namespace and with the same tags and bounds. -/
structure SameFolder (ctx ctx' : IngestContext) : Prop where
  fs : ctx.fs = ctx'.fs
  ns : ctx.ns = ctx'.ns
  tags : ctx.tags = ctx'.tags
  bounds : ctx.bounds = ctx'.bounds

theorem disposition_congr (hctx : SameFolder ctx ctx') (h : Abreast s t) (file : DiscoveredFile) :
    disposition host ctx s.totals file = disposition host ctx' t.totals file := by
  unfold disposition
  rw [hctx.fs, hctx.bounds, h.observed, h.bytes]

/-- What is observed is in the rows. -/
def Observed (ctx : IngestContext) (s : Ingest host) : Prop :=
  ∀ hash ∈ s.totals.observedHashes, Settled host.wire ctx.ns ctx.tags s.thoughts hash

theorem ingestOneFile_step {file : DiscoveredFile}
    (hplain : ∀ tag ∈ ctx.tags, ∀ t, host.wire.text tag = some t → t = tag)
    (h : ingestOneFile host ctx s file = some s') :
    Grows s.thoughts s'.thoughts ∧ s.totals.observedHashes ⊆ s'.totals.observedHashes ∧
      (Observed ctx s → Observed ctx s') := by
  unfold ingestOneFile at h
  dsimp only at h
  split at h
  · cases h
    exact ⟨.refl _, List.Subset.refl _, id⟩
  · cases h
    exact ⟨.refl _, List.Subset.refl _, id⟩
  · rename_i content hash bytes hfresh
    obtain ⟨⟨durable, thoughts, effects⟩, hwrite, h⟩ := Option.bind_eq_some_iff.mp h
    cases h
    obtain ⟨hgrows, hsettled⟩ := writeDurableFile_settles hplain hwrite
    refine ⟨hgrows, subset_append_left _ _, fun hs other hother => ?_⟩
    rcases mem_append.mp hother with hold | hnew
    · exact (hs other hold).grows hgrows
    · rw [mem_singleton.mp hnew]
      exact hsettled

theorem ingest_run (hplain : ∀ tag ∈ ctx.tags, ∀ t, host.wire.text tag = some t → t = tag)
    (h : files.foldlM (ingestOneFile host ctx) s = some s') :
    Grows s.thoughts s'.thoughts ∧ s.totals.observedHashes ⊆ s'.totals.observedHashes ∧
      (Observed ctx s → Observed ctx s') := by
  induction files generalizing s with
  | nil =>
    cases h
    exact ⟨.refl _, List.Subset.refl _, id⟩
  | cons file files ih =>
    rw [foldlM_cons] at h
    obtain ⟨mid, hfile, hrest⟩ := Option.bind_eq_some_iff.mp h
    obtain ⟨hgrows, hobserved, hkeeps⟩ := ingestOneFile_step hplain hfile
    obtain ⟨hgrows', hobserved', hkeeps'⟩ := ih hrest
    exact ⟨hgrows.trans hgrows', fun hash hmem => hobserved' (hobserved hmem), hkeeps' ∘ hkeeps⟩

/-- A file whose text the other collection found is only counted. -/
theorem ingestOneFile_again {file : DiscoveredFile} (hctx : SameFolder ctx ctx') (habreast : Abreast s t)
    (hquiet : t.effects = []) (h : ingestOneFile host ctx s file = some s')
    (hsettled : ∀ hash ∈ s'.totals.observedHashes,
      Settled host.wire ctx'.ns ctx'.tags t.thoughts hash) :
    ∃ t', ingestOneFile host ctx' t file = some t' ∧ Abreast s' t' ∧ t'.thoughts = t.thoughts ∧
      t'.effects = [] := by
  have hsame := disposition_congr hctx habreast file
  unfold ingestOneFile at h ⊢
  dsimp only at h ⊢
  rw [← hsame]
  cases hdisp : disposition host ctx s.totals file with
  | skip reason bytes =>
    rw [hdisp] at h
    cases h
    exact ⟨_, rfl, ⟨habreast.observed, habreast.manifest, by
      simp [recordSkip, habreast.bytes]⟩, rfl, hquiet⟩
  | repeated hash bytes =>
    rw [hdisp] at h
    cases h
    exact ⟨_, rfl, ⟨habreast.observed, habreast.manifest, by simp [habreast.bytes]⟩, rfl, hquiet⟩
  | fresh content hash bytes =>
    rw [hdisp] at h
    obtain ⟨⟨durable, thoughts, effects⟩, -, h⟩ := Option.bind_eq_some_iff.mp h
    cases h
    obtain ⟨id, hwrite⟩ := @writeDurableFile_of_settled host ctx'.auth ctx'.at' t.thoughts ctx'.ns
      ⟨content, hash, ctx'.tags⟩
      (hsettled hash (mem_append_right _ (mem_singleton_self _)))
    dsimp only
    rw [hwrite]
    exact ⟨_, rfl, ⟨by simp [habreast.observed], by simp [habreast.manifest], by
      simp [habreast.bytes]⟩, rfl, by simp [hquiet]⟩

theorem ingest_again (hplain : ∀ tag ∈ ctx.tags, ∀ t, host.wire.text tag = some t → t = tag)
    (hctx : SameFolder ctx ctx') (habreast : Abreast s t)
    (hquiet : t.effects = []) (h : files.foldlM (ingestOneFile host ctx) s = some s')
    (hsettled : ∀ hash ∈ s'.totals.observedHashes,
      Settled host.wire ctx'.ns ctx'.tags t.thoughts hash) :
    ∃ t', files.foldlM (ingestOneFile host ctx') t = some t' ∧ Abreast s' t' ∧
      t'.thoughts = t.thoughts ∧ t'.effects = [] := by
  induction files generalizing s t with
  | nil =>
    cases h
    exact ⟨t, rfl, habreast, rfl, hquiet⟩
  | cons file files ih =>
    rw [foldlM_cons] at h
    obtain ⟨mid, hfile, hrest⟩ := Option.bind_eq_some_iff.mp h
    have hmid := (ingest_run hplain hrest).2.1
    obtain ⟨t₁, ht₁, habreast₁, hrows₁, hquiet₁⟩ := ingestOneFile_again hctx habreast hquiet hfile
      fun hash hmem => hsettled hash (hmid hmem)
    obtain ⟨t', ht', habreast', hrows', hquiet'⟩ := ih habreast₁ hquiet₁ hrest (by rwa [hrows₁])
    exact ⟨t', by rw [foldlM_cons, ht₁]; exact ht', habreast', hrows'.trans hrows₁, hquiet'⟩

end Files

/-! ## The gate and the stamp -/

section Stamp
variable {host} {auth : AuthInfo} {input : CollectDropFolderInput} {sources : List SourceRecord}
  {row : SourceRecord}

abbrev targetNamespace (host : Host) (auth : AuthInfo) (input : CollectDropFolderInput) : Str :=
  effectiveWriteNamespace host.env auth input.target_namespace

/-- The texts of a collection reach the rows as they are written, and a key is read back from its
text. -/
structure Legible (host : Host) (auth : AuthInfo) (input : CollectDropFolderInput) : Prop where
  tags : ∀ tag ∈ input.tags, ∀ t, host.wire.text tag = some t → t = tag
  ns : ∀ t, host.wire.text (targetNamespace host auth input) = some t →
    t = targetNamespace host auth input
  digest : ∀ text t, host.wire.text (normalizedContentHash host text) = some t →
    t = normalizedContentHash host text
  uuid : ∀ id, host.wire.uuid (host.uuidText id) = some id

theorem physicalNamespace_idem (ns : Str) (env : SharedNamespaceEnv) :
    physicalNamespace (physicalNamespace ns env) env = physicalNamespace ns env := by
  unfold physicalNamespace
  dsimp only
  split
  · split <;> rfl
  · rfl

theorem physicalNamespace_target :
    physicalNamespace (targetNamespace host auth input) host.env = targetNamespace host auth input :=
  physicalNamespace_idem _ _

/-- The row of the registry that a collection goes by. -/
structure Eligible (host : Host) (auth : AuthInfo) (input : CollectDropFolderInput)
    (sources : List SourceRecord) (row : SourceRecord) : Prop where
  readable : ¬(input.target_namespace.isSome = true ∧
    canReadNamespace host.env auth (targetNamespace host auth input) = false)
  ns : host.wire.text (targetNamespace host auth input) = some (targetNamespace host auth input)
  found : ∃ external_id, host.wire.text input.external_id = some external_id ∧
    (sources.find? fun r => decide (r.key = ⟨targetNamespace host auth input, .drop, external_id⟩)) =
      some row
  approved : row.approval_state = .approved
  active : row.lifecycle_state = .active
  writable : (canWriteNamespace host.env auth (targetNamespace host auth input)).allowed = true

theorem ns_of_find {key : SourceKey}
    (h : (sources.find? fun r => decide (r.key = key)) = some row) : row.ns = key.ns := by
  have hkey := find?_some h
  exact congrArg SourceKey.ns (of_decide_eq_true hkey)

theorem Eligible.ns_eq (h : Eligible host auth input sources row) :
    row.ns = targetNamespace host auth input := by
  obtain ⟨external_id, -, hfind⟩ := h.found
  exact ns_of_find hfind

theorem eligible_of_resolve (hlegible : Legible host auth input) {source : SourceRecord} {ns : Str}
    (h : resolveEligibleDropSource host auth input sources = some (.ok (source, ns))) :
    ∃ row, Eligible host auth input sources row ∧ source = mapRow row ∧
      ns = targetNamespace host auth input := by
  unfold resolveEligibleDropSource at h
  split at h
  · cases h
  · cases h
  · rename_i record hgate
    unfold resolveIngestionEligibility at hgate
    dsimp only at hgate
    split at hgate
    · cases hgate
    · rename_i hreadable
      split at hgate
      · rename_i ns' external_id hns hexternal
        split at hgate
        · cases hgate
        · rename_i row hfind
          split at hgate
          · cases hgate
          · rename_i happroved
            split at hgate
            · cases hgate
            · rename_i hactive
              cases hgate
              obtain rfl := hlegible.ns ns' hns
              have hrow : row.ns = targetNamespace host auth input := ns_of_find hfind
              have hphysical : physicalNamespace (mapRow row).ns host.env =
                  targetNamespace host auth input := by
                rw [show (mapRow row).ns = row.ns from rfl, hrow]
                exact physicalNamespace_target
              dsimp only at h
              rw [hphysical] at h
              split at h
              · cases h
              · rename_i hwritable
                cases h
                exact ⟨row, ⟨hreadable, hns, ⟨external_id, hexternal, hfind⟩,
                  not_not.mp happroved, not_not.mp hactive, (Bool.not_eq_false _).mp hwritable⟩,
                  rfl, rfl⟩
      · cases hgate

theorem Eligible.resolve (h : Eligible host auth input sources row) :
    resolveEligibleDropSource host auth input sources =
      some (.ok (mapRow row, targetNamespace host auth input)) := by
  obtain ⟨external_id, hexternal, hfind⟩ := h.found
  have hgate : resolveIngestionEligibility host.wire host.env auth .drop input.external_id
      input.target_namespace sources = .ok (mapRow row) := by
    unfold resolveIngestionEligibility
    dsimp only
    rw [if_neg h.readable]
    rw [h.ns, hexternal]
    dsimp only
    rw [hfind]
    dsimp only
    have happroved : (mapRow row).approval_state = .approved := h.approved
    have hactive : (mapRow row).lifecycle_state = .active := h.active
    rw [if_neg (not_not.mpr happroved), if_neg (not_not.mpr hactive)]
  unfold resolveEligibleDropSource
  rw [hgate]
  dsimp only
  have hphysical : physicalNamespace (mapRow row).ns host.env = targetNamespace host auth input := by
    rw [show (mapRow row).ns = row.ns from rfl, h.ns_eq]
    exact physicalNamespace_target
  rw [hphysical, if_neg (by rw [h.writable]; decide)]

theorem stamp_assign {iso : Str} {manifestHash : Str} {now : Int} {source : SourceRecord}
    {assign : SourceRecord → SourceRecord}
    (h : buildUpdateAssignments host.wire auth (stampInput host input iso source manifestHash) false
      now = some assign) :
    ∃ hash synced, host.wire.text manifestHash = some hash ∧
      ∀ row, assign row =
        { row with sync_state := .synced, content_hash := some hash, last_synced_at := some synced } := by
  unfold buildUpdateAssignments stampInput at h
  simp only [SourceRegistry.optional, Option.bind_eq_bind, Option.bind_some] at h
  obtain ⟨hash, hhash, h⟩ := Option.bind_eq_some_iff.mp h
  obtain ⟨synced, hsynced, h⟩ := Option.bind_eq_some_iff.mp h
  obtain ⟨hash', hhash', rfl⟩ := Option.map_eq_some_iff.mp hhash
  obtain ⟨hash'', htext, rfl⟩ := Option.map_eq_some_iff.mp hhash'
  obtain ⟨synced', hsynced', rfl⟩ := Option.map_eq_some_iff.mp hsynced
  obtain ⟨synced'', -, rfl⟩ := Option.map_eq_some_iff.mp hsynced'
  refine ⟨hash'', synced'', htext, fun row => ?_⟩
  rw [← Option.some.inj h]
  rfl

def Stamped (host : Host) (manifestParts : List Str) (row : SourceRecord) : Prop :=
  manifestParts = [] ∨
    row.content_hash = some (normalizedContentHash host (joinSep [unit '\n'] manifestParts))

theorem stampManifest_of_stamped {at' : Moment} {parts : List Str} (h : Stamped host parts row) :
    stampManifest host auth input at' (mapRow row) parts sources = some (sources, []) := by
  unfold stampManifest
  by_cases hparts : parts = []
  · rw [if_pos hparts]
  · rw [if_neg hparts]
    have hhash := h.resolve_left hparts
    exact if_pos hhash.symm

def stampedRow (now : Int) (row : SourceRecord) (hash : Str) (synced : Int) : SourceRecord :=
  advance now { row with
    sync_state := .synced, content_hash := some hash, last_synced_at := some synced }

theorem updateSource_stamp (hlegible : Legible host auth input) {iso manifestHash : Str} {now : Int}
    (hids : (sources.map SourceRecord.id).Nodup) (hrow : Eligible host auth input sources row) :
    updateSource host.wire host.env auth (stampInput host input iso (mapRow row) manifestHash) sources
        now = (.done .threw, .none) ∨
      ∃ hash synced, host.wire.text manifestHash = some hash ∧
        updateSource host.wire host.env auth (stampInput host input iso (mapRow row) manifestHash)
          sources now = (.done (.ok (mapRow (stampedRow now row hash synced))),
            .updated (stampedRow now row hash synced)) := by
  obtain ⟨external_id, -, hfind⟩ := hrow.found
  have hfound : (sources.find? fun r => decide (r.id = row.id ∧
      r.ns = targetNamespace host auth input ∧ r.revision = (mapRow row).revision ∧
        r.lifecycle_state ≠ .retired)) = some row := by
    refine Table.find?_of_key hids (mem_of_find?_eq_some hfind)
      (decide_eq_true ⟨rfl, hrow.ns_eq, rfl, ?_⟩) fun other hother => (of_decide_eq_true hother).1
    rw [hrow.active]
    exact LifecycleState.noConfusion
  have hid : host.wire.uuid (stampInput host input iso (mapRow row) manifestHash).id = some row.id :=
    hlegible.uuid row.id
  unfold updateSource
  dsimp only
  rw [show (stampInput host input iso (mapRow row) manifestHash).target_namespace =
    input.target_namespace from rfl, hrow.writable, if_neg (by decide), if_neg (by simp [stampInput]),
    hid, hrow.ns]
  cases hassign : buildUpdateAssignments host.wire auth
    (stampInput host input iso (mapRow row) manifestHash) _ now with
  | none => exact .inl rfl
  | some assign =>
    obtain ⟨hash, synced, hhash, hassigned⟩ := stamp_assign hassign
    dsimp only
    split
    · exact .inl rfl
    · rw [show (stampInput host input iso (mapRow row) manifestHash).expected_revision =
        (mapRow row).revision from rfl, hfound]
      dsimp only
      split
      · exact .inl rfl
      · exact .inr ⟨hash, synced, hhash, by rw [hassigned]; rfl⟩

theorem stampManifest_stamps (hlegible : Legible host auth input) {at' : Moment} {parts : List Str}
    {sources' : List SourceRecord} {effects : List Effect}
    (hids : (sources.map SourceRecord.id).Nodup) (hrow : Eligible host auth input sources row)
    (h : stampManifest host auth input at' (mapRow row) parts sources = some (sources', effects)) :
    ∃ row', Eligible host auth input sources' row' ∧ row'.config = row.config ∧
      Stamped host parts row' := by
  unfold stampManifest at h
  split at h
  · rename_i hparts
    cases h
    exact ⟨row, hrow, rfl, .inl hparts⟩
  · dsimp only at h
    split at h
    · rename_i hsame
      cases h
      exact ⟨row, hrow, rfl, .inr hsame.symm⟩
    · rcases updateSource_stamp hlegible hids hrow with hthrew | ⟨hash, synced, hhash, hupdated⟩
      · rw [hthrew] at h
        cases h
      · rw [hupdated] at h
        cases h
        obtain ⟨external_id, hexternal, hfind⟩ := hrow.found
        refine ⟨stampedRow at'.now row hash synced, ⟨hrow.readable, hrow.ns, ⟨external_id, hexternal,
          ?_⟩, hrow.approved, hrow.active, hrow.writable⟩, rfl, .inr ?_⟩
        · have hkey := find?_some hfind
          exact @Table.find?_replaced _ _ _ row _ SourceRecord.id hids _
            (stampedRow at'.now row hash synced) hfind hkey
        · exact congrArg some (hlegible.digest _ _ hhash)

end Stamp

/-! ## A collection, and the next -/

section Again
variable {host} {auth : AuthInfo} {input : CollectDropFolderInput} {fs : FileSystem}
  {bounds : DropCollectorBounds} {at₁ at₂ : Moment} {store store₁ store₂ : Store host.V}
  {result : CollectDropFolderResult} {effects : List Effect}

/-- Others may have added rows and tags meanwhile. -/
structure Later (store store' : Store host.V) : Prop where
  sources : store'.sources = store.sources
  thoughts : Grows store.thoughts store'.thoughts

/-- Over a folder and a registry that have not changed, a collection after one that ended writes
nothing, embeds nothing and stamps nothing. -/
theorem collectDropFolder_again (hlegible : Legible host auth input)
    (hids : (store.sources.map SourceRecord.id).Nodup)
    (h : collectDropFolder host auth input fs bounds at₁ store = some (result, store₁, effects))
    (hlater : Later store₁ store₂) :
    ∃ result', collectDropFolder host auth input fs bounds at₂ store₂ = some (result', store₂, []) := by
  unfold collectDropFolder at h ⊢
  obtain ⟨gate, hgate, h⟩ := Option.bind_eq_some_iff.mp h
  cases gate with
  | error code =>
    cases h
    rw [hlater.sources, hgate]
    exact ⟨_, rfl⟩
  | ok source =>
    obtain ⟨source, ns⟩ := source
    obtain ⟨row, hrow, rfl, rfl⟩ := eligible_of_resolve hlegible hgate
    dsimp only at h
    cases hroot : configuredRoot host (mapRow row) with
    | none =>
      rw [hroot] at h
      cases h
      rw [hlater.sources, hgate]
      simp [hroot]
    | some configuredPath =>
      rw [hroot] at h
      dsimp only at h
      split at h
      · rename_i hunavailable
        cases h
        rw [hlater.sources, hgate]
        simp [hroot, hunavailable]
      · rename_i realRoot havailable
        obtain ⟨s, hingest, h⟩ := Option.bind_eq_some_iff.mp h
        obtain ⟨⟨sources, stamped⟩, hstamp, h⟩ := Option.bind_eq_some_iff.mp h
        cases h
        obtain ⟨row', hrow', hconfig, hstamped⟩ := stampManifest_stamps hlegible hids hrow hstamp
        have hroot' : configuredRoot host (mapRow row') = some configuredPath := by
          rw [← hroot]
          unfold configuredRoot mapRow
          dsimp only
          rw [hconfig]
        have hsettled : ∀ hash ∈ s.totals.observedHashes,
            Settled host.wire (targetNamespace host auth input) input.tags store₂.thoughts hash :=
          fun hash hmem => Settled.grows ((ingest_run hlegible.tags hingest).2.2
            (fun _ hnone => nomatch hnone) hash hmem) hlater.thoughts
        have hctx : SameFolder ⟨fs, auth, at₁, targetNamespace host auth input, input.tags, bounds⟩
          ⟨fs, auth, at₂, targetNamespace host auth input, input.tags, bounds⟩ := ⟨rfl, rfl, rfl, rfl⟩
        have hstart : @Abreast host ⟨emptyIngestTotals, store.thoughts, []⟩
          ⟨emptyIngestTotals, store₂.thoughts, []⟩ := ⟨rfl, rfl, rfl⟩
        obtain ⟨t, hagain, habreast, hthoughts, hquiet⟩ :=
          ingest_again hlegible.tags hctx hstart rfl hingest hsettled
        have hsources : store₂.sources = sources := hlater.sources
        rw [hsources, hrow'.resolve]
        simp only [Option.bind_eq_bind, Option.bind_some, hroot', havailable, hagain]
        rw [← habreast.manifest, stampManifest_of_stamped hstamped, hthoughts, hquiet, ← hsources]
        exact ⟨_, rfl⟩

end Again

/-- The digests of the text, of the path and of the one hash. -/
def sampleDigest (s : Str) : Str :=
  if s = units "hello" then
    units "2cf24dba5fb0a30e26e83b2ac5b9e29e1b161e5c1fa7425e73043362938b9824"
  else if s = units "a.md" then
    units "fecccc97532467adbf93017b357c8b17e0c75527df76a143de5cfecc2613f615"
  else units "d7914fe546b684688bb95f4f888a92dfc680603a75f23eb823658031fff766d9"

def sampleHost : Host where
  V := Unit
  toLowerCase := id
  sha256 := sampleDigest
  resolve := id
  uuidText id := List.replicate id (unit '0')
  embedFn _ := some none
  embeddingModel := units "gemini-embedding-001"
  wire := ⟨some, some, fun _ => some 0, fun s => some s.length⟩
  env := ⟨none, none, none, none, none, none⟩

def sampleAuth : AuthInfo := ⟨.admin, units "ops", none, none⟩

def sampleInput : CollectDropFolderInput := ⟨units "inbox", none, [units "drop"]⟩

def sampleFolder : WalkConfig :=
  let c := folder [units "a.md"] id 5 none
  { c with fs := { c.fs with
    openNoFollow := fun path => some ⟨⟨false, true, 1, path.length⟩, 5, some [104, 101, 108, 108, 111]⟩ } }

def sampleStore : Store sampleHost.V where
  thoughts := []
  sources := [{
    id := 3, ns := units "ops", scope := .obj [], source_kind := .drop, external_id := units "inbox"
    title := none, approval_state := .approved, approved_by := none, approved_at := none
    lifecycle_state := .active, sync_state := .never_synced, language := none
    config := .obj [(units "root", .str (units "/r"))], content_hash := none, last_synced_at := none
    revision := 1, created_by := units "ops", created_at := 0, updated_at := 0 }]

def sampleRun (id : Uuid) (store : Store sampleHost.V) :=
  collectDropFolder sampleHost sampleAuth sampleInput sampleFolder.fs ⟨5, 100, 100, 8, none⟩
    ⟨0, units "now", id⟩ store

end OpenBrain.Server.Capture

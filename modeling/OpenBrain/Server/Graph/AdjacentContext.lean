import OpenBrain.Core.Json
import Mathlib.Data.List.Nodup
import Mathlib.Data.List.Perm.Basic
import Mathlib.Order.Defs.LinearOrder
import Mathlib.Order.Lattice

/-!
# One hop of the link graph (`tools/adjacent-context.ts`)

The query finds the links that touch a node, comparing ids as uuids; which of the two ends is the
other one is then decided again on the texts. `faithful_iff` says when the two agree.
-/
namespace OpenBrain.Server.Graph
open OpenBrain.Core List

/-! ## Ids -/

/-- A hexadecimal digit as the driver writes it. -/
def lowerHex (u : UInt16) : UInt16 := if unit 'A' ≤ u ∧ u ≤ unit 'F' then u + 0x20 else u

def isHexDigit (u : UInt16) : Bool :=
  (unit '0' ≤ u && u ≤ unit '9') || (unit 'a' ≤ lowerHex u && lowerHex u ≤ unit 'f')

theorem lowerHex_idem (u : UInt16) : lowerHex (lowerHex u) = lowerHex u := by
  unfold lowerHex
  split
  · rename_i h
    rw [if_neg]
    simp only [UInt16.le_iff_toNat_le, UInt16.toNat_add, unit, UInt16.toNat_ofNat'] at h ⊢
    simp only [Char.reduceToNat, Nat.reducePow, Nat.reduceMod, UInt16.reduceToNat] at h ⊢
    omega
  · rfl

/-- A stored uuid, by the text it is read as. -/
structure Uuid where
  text : Str
  lower : text.map lowerHex = text

instance : DecidableEq Uuid := fun a b => decidable_of_iff (a.text = b.text) <| by
  constructor
  · intro h
    cases a
    cases b
    cases h
    rfl
  · intro h
    rw [h]

/-- `$2::uuid` of an accepted text. -/
def Uuid.read (text : Str) : Uuid :=
  ⟨text.map lowerHex, by rw [map_map]; exact map_congr_left fun u _ => lowerHex_idem u⟩

/-- `z.string().uuid()`, but for the digits that tell the version. -/
def graphUuid (text : Str) : Bool :=
  (text.splitOn (unit '-')).map List.length == [8, 4, 4, 4, 12] &&
    (text.splitOn (unit '-')).all fun part => part.all isHexDigit

/-! ## The tables -/

/-- A node of the graph: the type and id of a record. -/
abbrev Node := Str × Uuid

variable {ω ν : Type}

/-- A row of `ob_links`. -/
structure Link (ω ν : Type) where
  id : Uuid
  source : Node
  target : Node
  relation : Str
  weight : ω
  metadata : Option (Members ν)
  created_at : Nat
  linkNamespace : Str
  archived : Bool

/-- A row of `ob_entities`. -/
structure Entity where
  id : Uuid
  name : Str
  canonical_id : Option Str
  entityNamespace : Str
  archived : Bool

/-- The two tables, with their primary keys. -/
structure Tables (ω ν : Type) where
  links : List (Link ω ν)
  entities : List Entity
  links_pkey : (links.map Link.id).Nodup
  entities_pkey : (entities.map Entity.id).Nodup

inductive Direction where
  | outgoing
  | incoming
  | both
  deriving DecidableEq

/-- The arguments after the defaults, and the namespace the caller may read. -/
structure Request where
  type : Str
  id : Str
  accepted : graphUuid id = true
  readNamespace : Str
  relation : Option Str
  direction : Direction
  limit : Nat

def Request.node (request : Request) : Node := (request.type, Uuid.read request.id)

/-! ## The query -/

def ENTITY : Str := units "entity"

/-- The row a `LEFT JOIN` of a node's entity gives. -/
def joinEntity (t : Tables ω ν) (space : Str) (node : Node) : List (Option Entity) :=
  match t.entities.filter fun entity =>
    node.1 = ENTITY && entity.id = node.2 && entity.entityNamespace = space && !entity.archived with
  | [] => [none]
  | entities => entities.map some

/-- A row of the answer. -/
structure AdjacentLinkRow (ω ν : Type) where
  link : Link ω ν
  from_entity : Option Entity
  to_entity : Option Entity

/-- mirrors adjacent-context.ts:146-153 -/
def edgeCondition (request : Request) (link : Link ω ν) : Bool :=
  match request.direction with
  | .outgoing => link.source = request.node
  | .incoming => link.target = request.node
  | .both => link.source = request.node || link.target = request.node

/-- The conditions on the link alone. mirrors adjacent-context.ts:155-162, 201-203 -/
def linkCondition (request : Request) (link : Link ω ν) : Bool :=
  edgeCondition request link && link.linkNamespace = request.readNamespace && !link.archived &&
    request.relation.all (· = link.relation)

/-- A link with its joined entities, where a node that is an entity has one.
mirrors adjacent-context.ts:190-200, 204-205 -/
def rowsOf (t : Tables ω ν) (link : Link ω ν) : List (AdjacentLinkRow ω ν) :=
  (joinEntity t link.linkNamespace link.source).flatMap fun from_entity =>
    ((joinEntity t link.linkNamespace link.target).map fun to_entity =>
      ⟨link, from_entity, to_entity⟩).filter fun row =>
        (row.link.source.1 ≠ ENTITY || row.from_entity.isSome) &&
          (row.link.target.1 ≠ ENTITY || row.to_entity.isSome)

/-- mirrors adjacent-context.ts:172-206 -/
def matching (t : Tables ω ν) (request : Request) : List (AdjacentLinkRow ω ν) :=
  (t.links.filter (linkCondition request)).flatMap (rowsOf t)

/-- The order of the answer: by weight, then by age, the newest first. -/
def RanksBefore [LinearOrder ω] (a b : Link ω ν) : Prop :=
  b.weight < a.weight ∨ b.weight = a.weight ∧ b.created_at ≤ a.created_at

/-- The rows the database may answer with: it orders rows of one rank as it likes.
mirrors adjacent-context.ts:207-208 -/
def Answers [LinearOrder ω] (t : Tables ω ν) (request : Request)
    (rows : List (AdjacentLinkRow ω ν)) : Prop :=
  ∃ ordered : List (AdjacentLinkRow ω ν), ordered.Perm (matching t request) ∧
    ordered.Pairwise (fun a b => RanksBefore a.link b.link) ∧ rows = ordered.take request.limit

/-! ## The answer -/

structure AdjacentLink (ω ν : Type) where
  id : Uuid
  direction : Direction
  relation : Str
  weight : ω
  linked : Node
  linked_name : Option Str
  canonical_id : Option Str
  metadata : Members ν
  created_at : Nat

/-- mirrors adjacent-context.ts:219-239 -/
def linkFromSourcePerspective (request : Request) (row : AdjacentLinkRow ω ν) :
    AdjacentLink ω ν :=
  let isOutgoing : Bool :=
    row.link.source.1 = request.type && row.link.source.2.text = request.id
  let linked_entity := if isOutgoing then row.to_entity else row.from_entity
  { id := row.link.id
    direction := if isOutgoing then .outgoing else .incoming
    relation := row.link.relation
    weight := row.link.weight
    linked := if isOutgoing then row.link.target else row.link.source
    linked_name := linked_entity.map Entity.name
    canonical_id := linked_entity.bind Entity.canonical_id
    metadata := row.link.metadata.getD []
    created_at := row.link.created_at }

/-- mirrors adjacent-context.ts:288-300 -/
def runAdjacencyLookup (request : Request) (rows : List (AdjacentLinkRow ω ν)) :
    List (AdjacentLink ω ν) :=
  rows.map (linkFromSourcePerspective request)

/-! ## What a caller is to learn -/

def Visible (t : Tables ω ν) (space : Str) (node : Node) : Prop :=
  node.1 = ENTITY → ∃ entity ∈ t.entities,
    entity.id = node.2 ∧ entity.entityNamespace = space ∧ entity.archived = false

structure Wanted (t : Tables ω ν) (request : Request) (link : Link ω ν) : Prop where
  stored : link ∈ t.links
  edge : edgeCondition request link = true
  space : link.linkNamespace = request.readNamespace
  live : link.archived = false
  relation : ∀ relation, request.relation = some relation → relation = link.relation
  source : Visible t link.linkNamespace link.source
  target : Visible t link.linkNamespace link.target

/-- The link as it is seen from the node: its other end, in the direction in which it leads. -/
def SeenFrom (node : Node) (link : Link ω ν) (adjacent : AdjacentLink ω ν) : Prop :=
  adjacent.id = link.id ∧
    (adjacent.direction = .outgoing ∧ link.source = node ∧ adjacent.linked = link.target ∨
      adjacent.direction = .incoming ∧ link.target = node ∧ adjacent.linked = link.source)

/-- The links of an answer are those that are wanted, each once and as seen from the node; one is
left out only behind as many as are asked for. -/
structure Faithful [LinearOrder ω] (t : Tables ω ν) (request : Request)
    (links : List (AdjacentLink ω ν)) : Prop where
  reported : ∀ adjacent ∈ links, ∃ link, Wanted t request link ∧
    SeenFrom request.node link adjacent
  once : (links.map AdjacentLink.id).Nodup
  complete : ∀ link, Wanted t request link → link.id ∈ links.map AdjacentLink.id ∨
    links.length = request.limit ∧ ∀ adjacent ∈ links, ∃ link' ∈ t.links,
      link'.id = adjacent.id ∧ RanksBefore link' link

/-! ## The rows of the query -/

section Rows
variable {t : Tables ω ν} {request : Request}

theorem filter_of_key {α κ : Type} {key : α → κ} {rows : List α} (h : (rows.map key).Nodup) {k : κ}
    {p : α → Bool} (hp : ∀ a, p a = true → key a = k) :
    rows.filter p = [] ∨ ∃ a ∈ rows, p a = true ∧ rows.filter p = [a] := by
  induction rows with
  | nil => exact Or.inl rfl
  | cons a rows ih =>
    rw [map_cons, nodup_cons] at h
    cases ha : p a with
    | false =>
      rw [filter_cons_of_neg (by simp [ha])]
      rcases ih h.2 with hnil | ⟨b, hb, hpb, heq⟩
      · exact Or.inl hnil
      · exact Or.inr ⟨b, mem_cons_of_mem _ hb, hpb, heq⟩
    | true =>
      -- no other row has its key
      have hnil : rows.filter p = [] := by
        rw [filter_eq_nil_iff]
        intro b hb hpb
        apply h.1
        rw [hp a ha, ← hp b hpb]
        exact mem_map_of_mem hb
      exact Or.inr ⟨a, mem_cons_self, ha, by rw [filter_cons_of_pos ha, hnil]⟩

theorem joinEntity_eq (t : Tables ω ν) (space : Str) (node : Node) :
    ∃ entity, joinEntity t space node = [entity] ∧
      (node.1 = ENTITY → (entity.isSome ↔ Visible t space node)) := by
  unfold joinEntity Visible
  rcases filter_of_key t.entities_pkey (k := node.2) (p := fun entity =>
      node.1 = ENTITY && entity.id = node.2 && entity.entityNamespace = space && !entity.archived)
    (by simp +contextual) with hnil | ⟨entity, hmem, hp, heq⟩
  · refine ⟨none, by rw [hnil], fun hnode => iff_of_false (by simp) fun h => ?_⟩
    obtain ⟨entity, hmem, hid, hspace, hlive⟩ := h hnode
    exact filter_eq_nil_iff.mp hnil entity hmem (by simp [hnode, hid, hspace, hlive])
  · refine ⟨some entity, by rw [heq]; rfl, fun hnode => iff_of_true rfl fun _ => ?_⟩
    simp only [Bool.and_eq_true, decide_eq_true_eq, Bool.not_eq_true'] at hp
    exact ⟨entity, hmem, hp.1.1.2, hp.1.2, hp.2⟩

theorem rowsOf_eq (t : Tables ω ν) (link : Link ω ν) :
    (∃ row, rowsOf t link = [row] ∧ row.link = link ∧ Visible t link.linkNamespace link.source ∧
        Visible t link.linkNamespace link.target) ∨
      rowsOf t link = [] ∧ ¬(Visible t link.linkNamespace link.source ∧
        Visible t link.linkNamespace link.target) := by
  obtain ⟨source, hsource, hseen⟩ := joinEntity_eq t link.linkNamespace link.source
  obtain ⟨target, htarget, hseen'⟩ := joinEntity_eq t link.linkNamespace link.target
  have hvisible : ∀ {node : Node} {entity : Option Entity},
      (node.1 = ENTITY → (entity.isSome ↔ Visible t link.linkNamespace node)) →
        ((node.1 ≠ ENTITY || entity.isSome) = true ↔ Visible t link.linkNamespace node) := by
    intro node entity h
    by_cases hnode : node.1 = ENTITY
    · simpa [hnode] using h hnode
    · simp only [ne_eq, hnode, not_false_eq_true, decide_true, Bool.true_or, true_iff]
      exact fun hentity => absurd hentity hnode
  unfold rowsOf
  rw [hsource, htarget, flatMap_singleton, map_singleton]
  by_cases hboth : Visible t link.linkNamespace link.source ∧ Visible t link.linkNamespace link.target
  · left
    refine ⟨_, filter_cons_of_pos ?_, rfl, hboth⟩
    rw [Bool.and_eq_true]
    exact ⟨(hvisible hseen).mpr hboth.1, (hvisible hseen').mpr hboth.2⟩
  · right
    refine ⟨filter_cons_of_neg ?_, hboth⟩
    rw [Bool.and_eq_true]
    intro h
    exact hboth ⟨(hvisible hseen).mp h.1, (hvisible hseen').mp h.2⟩

theorem wanted_iff {link : Link ω ν} : Wanted t request link ↔
    link ∈ t.links ∧ linkCondition request link = true ∧
      Visible t link.linkNamespace link.source ∧ Visible t link.linkNamespace link.target := by
  unfold linkCondition
  simp only [Bool.and_eq_true, decide_eq_true_eq, Bool.not_eq_true', Option.all_eq_true]
  constructor
  · intro h
    exact ⟨h.stored, ⟨⟨⟨h.edge, h.space⟩, h.live⟩, h.relation⟩, h.source, h.target⟩
  · rintro ⟨hstored, ⟨⟨⟨hedge, hspace⟩, hlive⟩, hrelation⟩, hsource, htarget⟩
    exact ⟨hstored, hedge, hspace, hlive, hrelation, hsource, htarget⟩

theorem mem_matching {link : Link ω ν} :
    (∃ row ∈ matching t request, row.link = link) ↔ Wanted t request link := by
  rw [wanted_iff]
  unfold matching
  constructor
  · rintro ⟨row, hrow, rfl⟩
    obtain ⟨link, hlink, hrow⟩ := mem_flatMap.mp hrow
    obtain ⟨hstored, hcondition⟩ := mem_filter.mp hlink
    rcases rowsOf_eq t link with ⟨row', heq, hlink', hvisible⟩ | ⟨heq, -⟩
    · rw [heq, mem_singleton] at hrow
      subst hrow
      rw [hlink']
      exact ⟨hstored, hcondition, hvisible⟩
    · rw [heq] at hrow
      cases hrow
  · rintro ⟨hstored, hcondition, hvisible⟩
    rcases rowsOf_eq t link with ⟨row, heq, hlink, -⟩ | ⟨-, hnot⟩
    · refine ⟨row, ?_, hlink⟩
      refine mem_flatMap.mpr ⟨link, mem_filter.mpr ⟨hstored, hcondition⟩, ?_⟩
      rw [heq]
      exact mem_singleton_self row
    · exact absurd hvisible hnot

/-- Each of them once. -/
theorem nodup_matching (t : Tables ω ν) (request : Request) :
    ((matching t request).map fun row => row.link.id).Nodup := by
  have hsub : ∀ links : List (Link ω ν),
      ((links.flatMap (rowsOf t)).map fun row => row.link.id).Sublist (links.map Link.id) := by
    intro links
    induction links with
    | nil => exact List.Sublist.refl _
    | cons link links ih =>
      rw [flatMap_cons, map_append, map_cons]
      rcases rowsOf_eq t link with ⟨row, heq, hlink, -⟩ | ⟨heq, -⟩
      · rw [heq, map_singleton, hlink]
        exact ih.cons_cons _
      · rw [heq]
        exact ih.cons _
  refine (hsub _).nodup ?_
  exact (filter_sublist.map Link.id).nodup t.links_pkey

end Rows

/-! ## The answer -/

section Answer
variable [LinearOrder ω] {t : Tables ω ν} {request : Request} {rows : List (AdjacentLinkRow ω ν)}

theorem Answers.mem (h : Answers t request rows) {row : AdjacentLinkRow ω ν} (hrow : row ∈ rows) :
    Wanted t request row.link := by
  obtain ⟨ordered, hperm, -, rfl⟩ := h
  exact mem_matching.mp ⟨row, hperm.mem_iff.mp (mem_of_mem_take hrow), rfl⟩

theorem Answers.once (h : Answers t request rows) : (rows.map fun row => row.link.id).Nodup := by
  obtain ⟨ordered, hperm, -, rfl⟩ := h
  refine List.Nodup.sublist ((take_sublist _ _).map _) ?_
  exact ((hperm.map fun row => row.link.id).nodup_iff).mpr (nodup_matching t request)

/-- A link that is wanted and not among the rows ranks behind as many as are asked for. -/
theorem Answers.complete (h : Answers t request rows) {link : Link ω ν}
    (hlink : Wanted t request link) : (∃ row ∈ rows, row.link = link) ∨
      rows.length = request.limit ∧ ∀ row ∈ rows, RanksBefore row.link link := by
  obtain ⟨ordered, hperm, hsorted, rfl⟩ := h
  obtain ⟨row, hrow, rfl⟩ := mem_matching.mpr hlink
  have hmem : row ∈ ordered.take request.limit ++ ordered.drop request.limit := by
    rw [take_append_drop]
    exact hperm.mem_iff.mpr hrow
  rcases mem_append.mp hmem with htaken | hdropped
  · exact Or.inl ⟨row, htaken, rfl⟩
  · right
    constructor
    · have := length_pos_of_mem hdropped
      rw [List.length_drop] at this
      rw [length_take]
      omega
    · intro other hother
      rw [← take_append_drop request.limit ordered] at hsorted
      exact (pairwise_append.mp hsorted).2.2 other hother row hdropped

omit [LinearOrder ω] in
theorem map_id_lookup (request : Request) (rows : List (AdjacentLinkRow ω ν)) :
    (runAdjacencyLookup request rows).map AdjacentLink.id = rows.map fun row => row.link.id := by
  unfold runAdjacencyLookup
  rw [map_map]
  rfl

/-- The texts are compared as the ids are, when the id is spelled as the driver spells it. -/
theorem source_eq_node {source : Node} (h : request.id = (Uuid.read request.id).text) :
    source.1 = request.type ∧ source.2.text = request.id ↔ source = request.node := by
  obtain ⟨type, id⟩ := source
  unfold Request.node
  rw [Prod.mk.injEq]
  refine and_congr_right fun _ => ?_
  constructor
  · intro hid
    rw [h] at hid
    obtain ⟨text, lower⟩ := id
    unfold Uuid.read at hid ⊢
    subst hid
    rfl
  · rintro rfl
    exact h.symm

theorem text_ne {id : Uuid} (h : request.id ≠ (Uuid.read request.id).text) :
    id.text ≠ request.id := by
  intro hid
  apply h
  rw [← hid]
  exact id.lower.symm

omit [LinearOrder ω] in
/-- What is reported of a row is right unless its link leaves the node for another record and the
id is not spelled as the driver spells it. -/
theorem seenFrom_iff {row : AdjacentLinkRow ω ν}
    (h : row.link.source = request.node ∨ row.link.target = request.node) :
    SeenFrom request.node row.link (linkFromSourcePerspective request row) ↔
      request.id = (Uuid.read request.id).text ∨
        (row.link.source = request.node → row.link.target = request.node) := by
  unfold SeenFrom linkFromSourcePerspective
  by_cases hid : request.id = (Uuid.read request.id).text
  · refine iff_of_true ⟨rfl, ?_⟩ (Or.inl hid)
    by_cases hsource : row.link.source = request.node
    · have hout := (source_eq_node hid).mpr hsource
      rw [← Bool.decide_and, decide_eq_true hout]
      simp [hsource]
    · have hin : ¬(row.link.source.1 = request.type ∧ row.link.source.2.text = request.id) :=
        fun hout => hsource ((source_eq_node hid).mp hout)
      rw [← Bool.decide_and, decide_eq_false hin]
      simp [h.resolve_left hsource]
  · have hin : ¬(row.link.source.1 = request.type ∧ row.link.source.2.text = request.id) :=
      fun hout => text_ne hid hout.2
    rw [← Bool.decide_and, decide_eq_false hin]
    simp only [Bool.false_eq_true, if_false, true_and, and_true, reduceCtorEq, false_and,
      false_or, hid]
    constructor
    · intro htarget _
      exact htarget
    · intro himp
      exact h.elim himp id

/-- The answer is faithful when the id is spelled in lower case, and else as long as no link of the
rows leaves the node for another record. -/
theorem faithful_iff (h : Answers t request rows) :
    Faithful t request (runAdjacencyLookup request rows) ↔
      request.id = (Uuid.read request.id).text ∨
        ∀ row ∈ rows, row.link.source = request.node → row.link.target = request.node := by
  have htouch : ∀ row ∈ rows, row.link.source = request.node ∨ row.link.target = request.node := by
    intro row hrow
    have hedge := (h.mem hrow).edge
    unfold edgeCondition at hedge
    split at hedge
    · exact Or.inl (by simpa using hedge)
    · exact Or.inr (by simpa using hedge)
    · simpa using hedge
  constructor
  · intro hfaithful
    by_contra hneither
    rw [not_or] at hneither
    obtain ⟨hid, hleaves⟩ := hneither
    push Not at hleaves
    obtain ⟨row, hrow, hsource, htarget⟩ := hleaves
    obtain ⟨link, hlink, hseen⟩ := hfaithful.reported _ (mem_map_of_mem hrow)
    -- ids are a key, so the link that is reported is the row's
    have hsame : link = row.link :=
      inj_on_of_nodup_map t.links_pkey hlink.stored (h.mem hrow).stored hseen.1.symm
    rw [hsame, seenFrom_iff (htouch row hrow)] at hseen
    exact hseen.elim hid fun himp => htarget (himp hsource)
  · intro hright
    refine ⟨?_, ?_, ?_⟩
    · intro adjacent hadjacent
      obtain ⟨row, hrow, rfl⟩ := mem_map.mp hadjacent
      refine ⟨row.link, h.mem hrow, (seenFrom_iff (htouch row hrow)).mpr ?_⟩
      exact hright.imp_right fun himp => himp row hrow
    · rw [map_id_lookup]
      exact h.once
    · intro link hlink
      rw [map_id_lookup]
      rcases h.complete hlink with ⟨row, hrow, rfl⟩ | ⟨hlength, hranks⟩
      · exact Or.inl (mem_map_of_mem hrow)
      · refine Or.inr ⟨by unfold runAdjacencyLookup; rwa [length_map], ?_⟩
        intro adjacent hadjacent
        obtain ⟨row, hrow, rfl⟩ := mem_map.mp hadjacent
        exact ⟨row.link, (h.mem hrow).stored, rfl, hranks row hrow⟩

end Answer

/-! ## A capital in the id -/

section Example

def sampleId (last : Char) : Str := units "11111111-1111-4111-8111-11111111111" ++ [unit last]

def sampleLink : Link Nat Nat where
  id := Uuid.read (sampleId 'c')
  source := (units "thought", Uuid.read (sampleId 'a'))
  target := (units "thought", Uuid.read (sampleId 'b'))
  relation := units "depends_on"
  weight := 1
  metadata := none
  created_at := 0
  linkNamespace := units "collab"
  archived := false

def sampleTables : Tables Nat Nat where
  links := [sampleLink]
  entities := []
  links_pkey := nodup_singleton _
  entities_pkey := nodup_nil

def sampleRequest (id : Str) (h : graphUuid id = true) : Request where
  type := units "thought"
  id := id
  accepted := h
  readNamespace := units "collab"
  relation := none
  direction := .both
  limit := 50

theorem sample_answers {id : Str} {h : graphUuid id = true}
    (hrows : matching sampleTables (sampleRequest id h) = [⟨sampleLink, none, none⟩]) :
    Answers sampleTables (sampleRequest id h) [⟨sampleLink, none, none⟩] :=
  ⟨[⟨sampleLink, none, none⟩], by rw [hrows], pairwise_singleton _ _, rfl⟩

theorem faithful_sample :
    Answers sampleTables (sampleRequest (sampleId 'a') (by decide +kernel))
        [⟨sampleLink, none, none⟩] ∧
      Faithful sampleTables (sampleRequest (sampleId 'a') (by decide +kernel))
        (runAdjacencyLookup (sampleRequest (sampleId 'a') (by decide +kernel))
          [⟨sampleLink, none, none⟩]) := by
  have h := @sample_answers (sampleId 'a') (by decide +kernel) (by rfl)
  exact ⟨h, (faithful_iff h).mpr (Or.inl (by decide +kernel))⟩

/-- Asked for with a capital, the node is reported as its own neighbour. -/
theorem faithful_fails : ¬∀ (t : Tables Nat Nat) (request : Request)
    (rows : List (AdjacentLinkRow Nat Nat)), Answers t request rows →
      Faithful t request (runAdjacencyLookup request rows) := by
  intro hall
  have h := @sample_answers (sampleId 'A') (by decide +kernel) (by rfl)
  rcases (faithful_iff h).mp (hall _ _ _ h) with hid | hleaves
  · revert hid
    decide +kernel
  · have htarget := hleaves _ (mem_singleton_self _)
    revert htarget
    decide +kernel

end Example

end OpenBrain.Server.Graph

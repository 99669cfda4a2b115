import OraDesktop.Workflow.Parse
import Mathlib.Data.List.Dedup

/-!
# What the parser guarantees

An accepted document is well formed (`parse_wellFormed`): ids are unique in the whole document,
every scope is acyclic with its edges inside, Iteration regions are closed and entered only by
their owner, and Loop bodies hold no composites. Nothing else about the document is used by the
development of the engine.

## Main results

* `parseFlat_wellFormed` — one scope
* `parse_wellFormed` — the whole workflow
-/

namespace OraDesktop.Workflow

open Fallible List

/-! ### Nodes -/

variable {seen : List String} {node : WorkflowGraphNode} {id : String}

theorem nodup_cons_of_fresh {α : Type} {id : α → String} {a : α} {l : List α} (ha : id a ∉ seen)
    (hl : (l.map id).Nodup) (hseen : ∀ b ∈ l, id b ∉ id a :: seen) :
    ((a :: l).map id).Nodup ∧ ∀ b ∈ a :: l, id b ∉ seen := by
  refine ⟨?_, forall_mem_cons.mpr ⟨ha, fun b hb hmem => hseen b hb (mem_cons_of_mem _ hmem)⟩⟩
  rw [map_cons, nodup_cons]
  refine ⟨fun hmem => ?_, hl⟩
  obtain ⟨b, hb, heq⟩ := mem_map.mp hmem
  exact hseen b hb (heq ▸ mem_cons_self)

section

variable [JsonText]

theorem NodeData.toModel_eq_ok {nodeType : NodeType} {data : Wire.NodeData}
    (h : data.toModel id nodeType = .ok node) : node.id = id ∧ node.nodeType = nodeType ∧
      (nodeType = .start →
        intoStartInputVariables [] data.inputVariables = .ok node.inputVariables) := by
  simp only [Wire.NodeData.toModel] at h
  obtain ⟨_, hvariables, h⟩ := bind_eq_ok.mp h
  obtain ⟨_, -, h⟩ := bind_eq_ok.mp h
  obtain ⟨_, -, h⟩ := bind_eq_ok.mp h
  obtain ⟨_, -, h⟩ := bind_eq_ok.mp h
  obtain ⟨_, -, h⟩ := bind_eq_ok.mp h
  obtain ⟨_, -, h⟩ := bind_eq_ok.mp h
  cases h
  refine ⟨rfl, rfl, fun hstart => ?_⟩
  rw [if_pos hstart] at hvariables
  exact mapError_eq_ok.mp hvariables

/-- A node and the decoded shape it comes from. -/
structure NodeOf (wire : Wire.Node) (contained : ContainedNode) : Prop where
  id_eq : wire.id = some contained.node.id
  parentId_eq : contained.parentId = wire.parentId
  kind : ∃ data kind, wire.data = some data ∧ data.nodeType = some kind ∧
    NodeType.ofStr? kind = some contained.node.nodeType
  inputVariables : contained.node.nodeType = .start →
    ∃ wires, intoStartInputVariables [] wires = .ok contained.node.inputVariables

theorem toModel_eq_ok {wire : Wire.Node} {contained : ContainedNode}
    (h : wire.toModel seen = .ok contained) : NodeOf wire contained ∧ contained.node.id ∉ seen := by
  simp only [Wire.Node.toModel] at h
  obtain ⟨id, hid, h⟩ := bind_eq_ok.mp h
  obtain ⟨hseen, h⟩ := if_throw_eq_ok.mp h
  obtain ⟨data, hdata, h⟩ := bind_eq_ok.mp h
  obtain ⟨kind, hkind, h⟩ := bind_eq_ok.mp h
  obtain ⟨nodeType, htype, h⟩ := bind_eq_ok.mp h
  obtain ⟨node, hnode, h⟩ := bind_eq_ok.mp h
  cases h
  obtain ⟨hnid, hntype, hvariables⟩ := NodeData.toModel_eq_ok hnode
  refine ⟨⟨by rw [hnid]; exact elim_eq_ok.mp hid, rfl, ⟨data, kind, elim_eq_ok.mp hdata,
    elim_eq_ok.mp hkind, by rw [hntype]; exact elim_eq_ok.mp htype⟩,
    fun hstart => ⟨_, hvariables (hntype ▸ hstart)⟩⟩, ?_⟩
  rw [hnid]
  simpa using hseen

theorem parseNodes_eq_ok {wires : List Wire.Node} {contained : List ContainedNode}
    (h : parseNodes seen wires = .ok contained) :
    List.Forall₂ NodeOf wires contained ∧ (contained.map (·.node.id)).Nodup ∧
      ∀ c ∈ contained, c.node.id ∉ seen := by
  induction wires generalizing seen contained with
  | nil =>
    cases h
    exact ⟨.nil, nodup_nil, by simp⟩
  | cons wire wires ih =>
    rw [parseNodes] at h
    obtain ⟨c, hc, h⟩ := bind_eq_ok.mp h
    obtain ⟨cs, hcs, h⟩ := bind_eq_ok.mp h
    cases h
    obtain ⟨hof, hfresh⟩ := toModel_eq_ok hc
    obtain ⟨hrest, hnodup, hseen⟩ := ih hcs
    exact ⟨.cons hof hrest, nodup_cons_of_fresh hfresh hnodup hseen⟩

end

/-! ### Regions -/

section

variable {contained : List ContainedNode} {edges : List WorkflowGraphEdge}

theorem mem_regionOf {ownerId member : String} :
    member ∈ (regionOf contained ownerId).memberIds ↔
      ∃ c ∈ contained, c.parentId = some ownerId ∧ c.node.id = member := by
  simp [regionOf, and_assoc]

theorem containedNode_eq_some (h : containedNode contained id = some node) :
    ∃ c ∈ contained, c.node = node ∧ node.id = id := by
  obtain ⟨c, hc, rfl⟩ := Option.map_eq_some_iff.mp h
  exact ⟨c, mem_of_find?_eq_some hc, rfl, by simpa using List.find?_some hc⟩

/-- Among unique ids, a node is found under its own. -/
theorem containedNode_eq (hnodup : (contained.map (·.node.id)).Nodup) {c : ContainedNode}
    (hc : c ∈ contained) : containedNode contained c.node.id = some c.node := by
  rcases hfound : containedNode contained c.node.id with _ | node
  · have := List.find?_eq_none.mp (Option.map_eq_none_iff.mp hfound) c hc
    simp at this
  · obtain ⟨c', hc', rfl, hid⟩ := containedNode_eq_some hfound
    rw [inj_on_of_nodup_map hnodup hc' hc hid]

variable {region : CompositeRegion}

theorem mem_memberTargets {a b : String} :
    b ∈ memberTargets region edges a ↔
      (∃ e ∈ edges, e.source = a ∧ e.target = b) ∧ b ∈ region.memberIds := by
  simp only [memberTargets, mem_filter, mem_map, beq_iff_eq, CompositeRegion.contains,
    contains_iff_mem]
  exact and_congr_left fun _ =>
    ⟨fun ⟨e, ⟨he, hs⟩, ht⟩ => ⟨e, he, hs, ht⟩, fun ⟨e, he, hs, ht⟩ => ⟨e, ⟨he, hs⟩, ht⟩⟩

/-- What `validate_region` checks of a region, as the facts that the scheduler relies on. -/
structure RegionValid (contained : List ContainedNode) (edges : List WorkflowGraphEdge)
    (region : CompositeRegion) : Prop where
  nonempty : region.memberIds ≠ []
  reached : ∀ m ∈ region.memberIds, m ∈ reachedMembers region edges
  member : ∀ m ∈ region.memberIds, checkMember region contained edges m = none
  entry : ∀ e ∈ edges, e.target ∈ region.memberIds →
    e.source ∈ region.memberIds ∨ e.source = region.ownerId

theorem regionValid_of_validate (h : validateRegion region contained edges = none) :
    RegionValid contained edges region := by
  rw [validateRegion] at h
  split at h
  · cases h
  rename_i hnonempty
  split at h
  · cases h
  split at h
  · cases h
  rename_i hreached
  obtain ⟨hmembers, hedges⟩ := Option.or_eq_none_iff.mp h
  refine ⟨by simpa using hnonempty, fun m hm => ?_,
    fun m hm => List.findSome?_eq_none_iff.mp hmembers m hm, fun e he ht => ?_⟩
  · simpa using List.find?_eq_none.mp hreached m hm
  · have := List.find?_eq_none.mp (Option.map_eq_none_iff.mp hedges) e he
    by_contra hnot
    rw [not_or] at hnot
    exact this (by simp [CompositeRegion.contains, hnot.1, hnot.2, ht])

theorem checkMember_eq_none {member : String} (hnode : containedNode contained member = some node)
    (h : checkMember region contained edges member = none) :
    node.nodeType ≠ .output ∧ node.nodeType ≠ .iteration ∧
      ∀ e ∈ edges, e.source = member → e.target ∈ region.memberIds := by
  simp only [checkMember, hnode, Option.map_some, Option.some.injEq] at h
  split at h
  · cases h
  rename_i houtput
  split at h
  · cases h
  rename_i hiteration
  split at h
  · cases h
  · refine ⟨houtput, hiteration, fun e he hs => ?_⟩
    have := List.find?_eq_none.mp (Option.map_eq_none_iff.mp h) e he
    simpa [hs, CompositeRegion.contains] using this

theorem deriveRegions_eq_ok {regions : List CompositeRegion}
    (h : deriveRegions contained edges = .ok regions) :
    checkParents contained = none ∧ regions = (regionOwners contained).map (regionOf contained) ∧
      ∀ r ∈ regions, RegionValid contained edges r := by
  rw [deriveRegions] at h
  split at h
  · cases h
  rename_i hparents
  simp only at h
  split at h
  · cases h
  · rename_i hvalid
    cases h
    exact ⟨hparents, rfl, fun r hr =>
      regionValid_of_validate (List.findSome?_eq_none_iff.mp hvalid r hr)⟩

end

/-! ### One scope -/

theorem parseEdge_eq_ok {ids : List String} {wire : Wire.Edge} {edge : WorkflowGraphEdge}
    (h : parseEdge ids wire = .ok edge) : edge.source ∈ ids ∧ edge.target ∈ ids := by
  rw [parseEdge] at h
  split at h
  · cases h
  · cases h
  split at h
  · cases h
  rename_i hsource
  split at h
  · cases h
  · rename_i htarget
    cases h
    exact ⟨not_not.mp hsource, not_not.mp htarget⟩

/-- In a list with at most one match, two matches are the same. -/
theorem eq_of_filter_length_le_one {α : Type} {p : α → Bool} {l : List α}
    (h : (l.filter p).length ≤ 1) {a b : α} (ha : a ∈ l) (hb : b ∈ l) (hpa : p a = true)
    (hpb : p b = true) : a = b := by
  have hma := mem_filter.mpr ⟨ha, hpa⟩
  have hmb := mem_filter.mpr ⟨hb, hpb⟩
  match hl : l.filter p with
  | [] => simp [hl] at hma
  | [c] =>
    rw [hl, mem_singleton] at hma hmb
    rw [hma, hmb]
  | _ :: _ :: _ => simp [hl] at h

section

variable [JsonText] [Toposort] {wireNodes : List Wire.Node} {wireEdges : List Wire.Edge}
  {globals : List WorkflowGlobalVariable} {g : FlatGraph}

/-- A scope and what it was assembled from: every field of it can be traced to the decoded nodes and
edges. -/
structure Assembled (contained : List ContainedNode) (wireEdges : List Wire.Edge) (g : FlatGraph) :
    Prop where
  nodes_eq : g.nodes = contained.map (·.node)
  edges : List.Forall₂ (fun wire edge => parseEdge g.nodeIds wire = .ok edge) wireEdges g.edges
  one_start : (g.nodes.filter (·.nodeType == .start)).length ≤ 1
  order : Toposort.order g.nodeIds (g.edges.map fun e => (e.source, e.target)) = some g.topoOrder
  regions : deriveRegions contained g.edges = .ok g.regions
  derived : g.validateDerivedDeclarations = none

theorem assembleFlat_eq_ok (h : assembleFlat wireNodes wireEdges globals = .ok g) :
    ∃ contained, parseNodes [] wireNodes = .ok contained ∧ g.globalVariables = globals ∧
      Assembled contained wireEdges g := by
  simp only [assembleFlat] at h
  obtain ⟨contained, hnodes, h⟩ := bind_eq_ok.mp h
  obtain ⟨edges, hedges, h⟩ := bind_eq_ok.mp h
  obtain ⟨hstart, h⟩ := if_throw_eq_ok.mp h
  obtain ⟨order, horder, h⟩ := bind_eq_ok.mp h
  obtain ⟨regions, hregions, h⟩ := bind_eq_ok.mp h
  refine ⟨contained, hnodes, ?_⟩
  split at h
  · cases h
  · rename_i hderived
    cases h
    exact ⟨rfl, rfl, mapM_eq_ok.mp hedges, not_lt.mp hstart, elim_eq_ok.mp horder, hregions, hderived⟩

end

section

variable [Toposort] {wireEdges : List Wire.Edge} {g : FlatGraph} {contained : List ContainedNode}

variable (h : Assembled contained wireEdges g)

include h

theorem Assembled.nodeIds_eq : g.nodeIds = contained.map (·.node.id) := by
  rw [FlatGraph.nodeIds, h.nodes_eq, map_map]
  rfl

theorem Assembled.edge_mem {e : WorkflowGraphEdge}
    (he : e ∈ g.edges) : e.source ∈ g.nodeIds ∧ e.target ∈ g.nodeIds := by
  obtain ⟨wire, -, hwire⟩ := exists_left h.edges he
  exact parseEdge_eq_ok hwire

theorem Assembled.mem_regions {r : CompositeRegion}
    (hr : r ∈ g.regions) : r = regionOf contained r.ownerId ∧ RegionValid contained g.edges r ∧
      ∃ c ∈ contained, c.parentId = some r.ownerId := by
  obtain ⟨-, hregions, hvalid⟩ := deriveRegions_eq_ok h.regions
  have hmem := hr
  rw [hregions, mem_map] at hmem
  obtain ⟨owner, howner, rfl⟩ := hmem
  exact ⟨rfl, hvalid _ hr, by simpa [regionOwners, regionOf] using howner⟩

theorem Assembled.exists_member {r : CompositeRegion} (hr : r ∈ g.regions) {m : String}
    (hm : m ∈ r.memberIds) : ∃ c ∈ contained, c.parentId = some r.ownerId ∧ c.node.id = m := by
  rw [(h.mem_regions hr).1] at hm
  exact mem_regionOf.mp hm

/-- A member's own rules, with the node they are about. -/
theorem Assembled.member_rules (hnodup : (contained.map (·.node.id)).Nodup) {r : CompositeRegion}
    (hr : r ∈ g.regions) {m : String} (hm : m ∈ r.memberIds) :
    ∃ c ∈ contained, c.node.id = m ∧ c.node.nodeType ≠ .output ∧ c.node.nodeType ≠ .iteration ∧
      ∀ e ∈ g.edges, e.source = m → e.target ∈ r.memberIds := by
  obtain ⟨c, hc, -, rfl⟩ := h.exists_member hr hm
  exact ⟨c, hc, rfl, checkMember_eq_none (containedNode_eq hnodup hc)
    ((h.mem_regions hr).2.1.member _ hm)⟩

/-- The walk over a region's members goes along edges of the scope. -/
theorem Assembled.member_reached {r : CompositeRegion} (hr : r ∈ g.regions) {m : String}
    (hm : m ∈ r.memberIds) : Relation.TransGen g.Edge r.ownerId m := by
  have hreached := (h.mem_regions hr).2.1.reached m hm
  rw [reachedMembers] at hreached
  rcases Explore.visit_sound hreached with hnil | ⟨entry, hentry, hpath⟩
  · cases hnil
  obtain ⟨⟨e, he, hsource, htarget⟩, -⟩ := mem_memberTargets.mp (mem_reverse.mp hentry)
  have hfirst : g.Edge r.ownerId entry := ⟨e, he, hsource, htarget⟩
  refine .head' hfirst (Relation.ReflTransGen.mono (fun a b hab => ?_) _ _ hpath)
  obtain ⟨⟨e, he, hsource, htarget⟩, -⟩ := mem_memberTargets.mp hab
  exact ⟨e, he, hsource, htarget⟩

theorem Assembled.wellFormed (hnodup : (contained.map (·.node.id)).Nodup) : g.WellFormed := by
  obtain ⟨hparents, hregions, -⟩ := deriveRegions_eq_ok h.regions
  refine
    { nodup_ids := h.nodeIds_eq ▸ hnodup
      source_mem := fun e he => (h.edge_mem he).1
      target_mem := fun e he => (h.edge_mem he).2
      topo_perm := Toposort.perm h.order
      topo_forward := fun e he => Toposort.forward h.order _ (mem_map_of_mem he)
      start_unique := fun m hm n hn hms hns =>
        eq_of_filter_length_le_one h.one_start hm hn (by simp [hms]) (by simp [hns])
      nodup_owners := ?_
      region_nonempty := fun r hr => (h.mem_regions hr).2.1.nonempty
      region_owner_iteration := fun r hr => ?_
      region_member_mem := fun r hr m hm => ?_
      region_disjoint := fun r hr r' hr' m hm hm' => ?_
      region_member_kind := fun r hr n hn hm => ?_
      region_closed := fun r hr e he hs => ?_
      region_entry := fun r hr e he ht => (h.mem_regions hr).2.1.entry e he ht
      region_reached := fun r hr m hm => h.member_reached hr hm }
  · rw [hregions, map_map]
    exact (map_id _).symm ▸ nodup_reverse.mpr (nodup_dedup _)
  · obtain ⟨-, -, c, hc, hparent⟩ := h.mem_regions hr
    have hchecked := List.findSome?_eq_none_iff.mp hparents c hc
    simp only [hparent, Option.bind_some, ite_eq_left_iff, reduceCtorEq, imp_false, not_not,
      Option.any_eq_true, beq_iff_eq] at hchecked
    obtain ⟨node, hfound, htype⟩ := hchecked
    obtain ⟨c', hc', rfl, hid⟩ := containedNode_eq_some hfound
    exact ⟨c'.node, h.nodes_eq ▸ mem_map_of_mem hc', hid, htype⟩
  · obtain ⟨c, hc, -, rfl⟩ := h.exists_member hr hm
    rw [h.nodeIds_eq]
    exact mem_map_of_mem hc
  · obtain ⟨c, hc, hparent, rfl⟩ := h.exists_member hr hm
    obtain ⟨c', hc', hparent', hid⟩ := h.exists_member hr' hm'
    rw [inj_on_of_nodup_map hnodup hc' hc hid, hparent] at hparent'
    rw [(h.mem_regions hr).1, (h.mem_regions hr').1, Option.some.inj hparent']
  · obtain ⟨c, hc, hid, hkind⟩ := h.member_rules hnodup hr hm
    obtain ⟨c', hc', rfl⟩ := mem_map.mp (h.nodes_eq ▸ hn)
    rw [inj_on_of_nodup_map hnodup hc hc' hid] at hkind
    exact ⟨hkind.1, hkind.2.1⟩
  · obtain ⟨-, -, -, -, -, hclosed⟩ := h.member_rules hnodup hr hs
    exact hclosed e he rfl

end

/-! ### A scope and its document -/

variable {v : Value}

theorem optional_eq_some {α : Type} {read : Wire.Reader α} {key : String} {a : α}
    (h : Wire.optional read v key = some (some a)) : ∃ field, v.get key = some field ∧
      read field = some a := by
  rw [Wire.optional] at h
  split at h
  · cases h
  · cases h
  · rename_i field _ hget
    obtain ⟨b, hb, heq⟩ := Option.map_eq_some_iff.mp h
    cases heq
    exact ⟨field, hget, hb⟩

theorem asStr_eq_some {s : String} (h : v.asStr = some s) : v = .str s := by
  cases v <;> cases h
  rfl

theorem asArray_eq_some {items : List Value} (h : v.asArray = some items) : v = .arr items := by
  cases v <;> cases h
  rfl

theorem index_of_get {v field : Value} {key : String} (h : v.get key = some field) :
    v.index key = field := by
  rw [Value.index, h, Option.getD_some]

theorem string_of_optional {key s : String} (h : Wire.optional Wire.string v key = some (some s)) :
    v.get key = some (.str s) := by
  obtain ⟨field, hget, hread⟩ := optional_eq_some h
  rw [hget, asStr_eq_some hread]

/-- A node and the document's entry for it. -/
structure EntryOf (raw : Value) (contained : ContainedNode) : Prop where
  id_eq : raw.index "id" = .str contained.node.id
  kind : ∃ kind, (raw.index "data").index "kind" = .str kind ∧
    NodeType.ofStr? kind = some contained.node.nodeType
  parent : ∀ p, contained.parentId = some p → raw.get "parentId" = some (.str p)

theorem NodeData.kind_of_read {data : Wire.NodeData} (h : Wire.NodeData.read v = some data)
    {kind : String} (hkind : data.nodeType = some kind) : v.index "kind" = .str kind := by
  simp only [Wire.NodeData.read, Option.bind_eq_bind, Option.bind_eq_some_iff] at h
  obtain ⟨_, -, field, hfield, _, -, _, -, _, -, _, -, _, -, _, -, _, -, _, -, heq⟩ := h
  cases heq
  cases hkind
  exact index_of_get (string_of_optional hfield)

variable {raw : Value}

theorem entryOf_of_read {wire : Wire.Node} {contained : ContainedNode}
    (hread : Wire.Node.read raw = some wire) (hof : NodeOf wire contained) :
    EntryOf raw contained := by
  simp only [Wire.Node.read, Option.bind_eq_bind, Option.bind_eq_some_iff] at hread
  obtain ⟨_, -, id, hid, data, hdata, parent, hparent, heq⟩ := hread
  cases heq
  obtain ⟨hid', hparent', ⟨data', kind, hdata', hkind, htype⟩, -⟩ := hof
  simp only at hid' hparent' hdata'
  subst hid' hdata'
  refine ⟨index_of_get (string_of_optional hid), ⟨kind, ?_, htype⟩, fun p hp => ?_⟩
  · obtain ⟨field, hget, hfield⟩ := optional_eq_some hdata
    rw [index_of_get hget]
    exact NodeData.kind_of_read hfield hkind
  · rw [hparent'] at hp
    subst hp
    exact string_of_optional hparent

variable {document : Value}

section

variable [JsonText] [Toposort]

/-- A parsed scope, the nodes it was parsed from and the document's entries for them. -/
theorem parseFlat_eq_ok {g : FlatGraph} (h : parseFlat document = .ok g) :
    ∃ entries contained wireEdges, document.get "nodes" = some (.arr entries) ∧
      List.Forall₂ EntryOf entries contained ∧ (contained.map (·.node.id)).Nodup ∧
      Assembled contained wireEdges g := by
  rw [parseFlat] at h
  split at h
  · cases h
  rename_i envelope henvelope
  obtain ⟨wireNodes, hnodes, h⟩ := bind_eq_ok.mp h
  obtain ⟨wireEdges, hedges, h⟩ := bind_eq_ok.mp h
  obtain ⟨globals, -, h⟩ := bind_eq_ok.mp h
  obtain ⟨contained, hparse, -, hassembled⟩ := assembleFlat_eq_ok h
  obtain ⟨hof, hnodup, -⟩ := parseNodes_eq_ok hparse
  simp only [Wire.Envelope.read, Option.bind_eq_bind, Option.bind_eq_some_iff] at henvelope
  obtain ⟨_, -, nodes, hread, _, -, _, -, heq⟩ := henvelope
  cases heq
  rw [elim_eq_ok] at hnodes
  simp only at hnodes
  subst hnodes
  obtain ⟨field, hget, hfield⟩ := optional_eq_some hread
  obtain ⟨entries, hentries, hmap⟩ := Option.bind_eq_some_iff.mp hfield
  refine ⟨entries, contained, wireEdges, by rw [hget, asArray_eq_some hentries], ?_, hnodup,
    hassembled⟩
  refine forall₂_trans (mapM_eq_some.mp hmap) hof fun hr ho => entryOf_of_read hr ho

/-- The variables of a scope come out of the parser's two checks of declarations. -/
structure Declared (g : FlatGraph) : Prop where
  globals : ∃ wires, intoGlobalVariables wires = .ok g.globalVariables
  start : ∀ node ∈ g.nodes, node.nodeType = .start →
    ∃ wires, intoStartInputVariables [] wires = .ok node.inputVariables

theorem declared_of_parseFlat {g : FlatGraph} (h : parseFlat document = .ok g) : Declared g := by
  rw [parseFlat] at h
  split at h
  · cases h
  obtain ⟨_, -, h⟩ := bind_eq_ok.mp h
  obtain ⟨_, -, h⟩ := bind_eq_ok.mp h
  obtain ⟨globals, hglobals, h⟩ := bind_eq_ok.mp h
  obtain ⟨contained, hparse, rfl, hassembled⟩ := assembleFlat_eq_ok h
  refine ⟨⟨_, mapError_eq_ok.mp hglobals⟩, fun node hnode => ?_⟩
  rw [hassembled.nodes_eq] at hnode
  obtain ⟨c, hc, rfl⟩ := mem_map.mp hnode
  obtain ⟨_, -, hof⟩ := exists_left (parseNodes_eq_ok hparse).1 hc
  exact hof.inputVariables

end

/-! ### Scopes of a document with Loops -/

theorem ofStr?_eq_some {s : String} {nodeType : NodeType} (h : NodeType.ofStr? s = some nodeType) :
    s = nodeType.asStr := by
  unfold NodeType.ofStr? at h
  split at h <;> cases h <;> rfl

theorem get_removeField {key other : String} (hne : key ≠ other) (v : Value) :
    (removeField other v).get key = v.get key := by
  cases v with
  | obj fields =>
    simp only [removeField, Value.get, Value.asObject, Option.bind_some]
    induction fields with
    | nil => rfl
    | cons field fields ih =>
      obtain ⟨k, value⟩ := field
      by_cases hk : k = other
      · have hkey : (key == k) = false := by simp [hk, hne]
        rw [filter_cons_of_neg (by simpa using hk), ih, lookup_cons, hkey]
      · rw [filter_cons_of_pos (by simpa using hk), lookup_cons, lookup_cons, ih]
  | _ => rfl

/-- The document's entry for a node, as the scope's document has it. -/
structure ScopedNode.Valid (raw : Value) (n : ScopedNode) : Prop where
  id_eq : raw.index "id" = .str n.id
  raw_eq : n.raw = if n.owner.isSome then removeField "parentId" raw else raw
  /-- Exactly the Loops have a configuration, and they are nested in nothing. -/
  loop : (raw.index "data").index "kind" = .str "loop" →
    n.config.isSome = true ∧ n.owner = none ∧ raw.get "parentId" = none
  config : ∀ c, n.config = some c → (raw.index "data").index "kind" = .str "loop" ∧
    LoopConfig.parse ((raw.index "data").index "loopConfig") = .ok c
  iteration : (raw.index "data").index "kind" = .str "iteration" → n.owner = none

theorem requiredString_eq_ok {reason s : String} (h : requiredString v reason = .ok s) :
    v = .str s := by
  rw [requiredString] at h
  split at h
  · rename_i text hfilter
    cases h
    exact asStr_eq_some (Option.eq_some_of_filter_eq_some hfilter)
  · cases h

theorem loopConfigOf_eq_ok {owner : Option String} {config : Option LoopConfig}
    (h : loopConfigOf id owner raw = .ok config) :
    ((raw.index "data").index "kind" = .str "loop" →
      config.isSome = true ∧ owner = none ∧ raw.get "parentId" = none) ∧
    ∀ c, config = some c → (raw.index "data").index "kind" = .str "loop" ∧
      LoopConfig.parse ((raw.index "data").index "loopConfig") = .ok c := by
  rw [loopConfigOf] at h
  split at h
  · rename_i hkind
    cases h
    exact ⟨fun hloop => absurd hloop hkind, fun c hc => by cases hc⟩
  rename_i hkind
  split at h
  · cases h
  rename_i hnested
  obtain ⟨c, hc, rfl⟩ := map_eq_ok.mp (mapError_eq_ok.mp h)
  rw [not_or] at hnested
  refine ⟨fun _ => ⟨rfl, by simpa using hnested.1, by simpa using hnested.2⟩, fun c' hc' => ?_⟩
  cases hc'
  exact ⟨not_not.mp hkind, hc⟩

theorem scopedNode_eq_ok {edges : List Value} {n : ScopedNode}
    (h : scopedNode edges seen raw = .ok n) : n.Valid raw ∧ n.id ∉ seen := by
  simp only [scopedNode] at h
  obtain ⟨id, hid, h⟩ := bind_eq_ok.mp h
  obtain ⟨owner, -, h⟩ := bind_eq_ok.mp h
  obtain ⟨-, h⟩ := if_throw_eq_ok.mp h
  obtain ⟨hseen, h⟩ := if_throw_eq_ok.mp h
  obtain ⟨config, hconfig, h⟩ := bind_eq_ok.mp h
  obtain ⟨hiteration, h⟩ := if_throw_eq_ok.mp h
  obtain ⟨-, h⟩ := if_throw_eq_ok.mp h
  cases h
  obtain ⟨hloop, hparse⟩ := loopConfigOf_eq_ok hconfig
  refine ⟨⟨requiredString_eq_ok hid, rfl, hloop, hparse, fun hkind => ?_⟩, by simpa using hseen⟩
  rw [not_and] at hiteration
  rcases howner : owner with _ | o
  · rfl
  · exact absurd hkind (hiteration (by rw [howner]; rfl))

variable {nodes : List ScopedNode}

theorem scopedNodes_eq_ok {edges raws : List Value} (h : scopedNodes edges seen raws = .ok nodes) :
    (∀ n ∈ nodes, ∃ raw, n.Valid raw) ∧ (nodes.map (·.id)).Nodup ∧ ∀ n ∈ nodes, n.id ∉ seen := by
  induction raws generalizing seen nodes with
  | nil =>
    cases h
    exact ⟨by simp, nodup_nil, by simp⟩
  | cons raw raws ih =>
    rw [scopedNodes] at h
    obtain ⟨n, hn, h⟩ := bind_eq_ok.mp h
    obtain ⟨rest, hrest, h⟩ := bind_eq_ok.mp h
    cases h
    obtain ⟨hvalid, hfresh⟩ := scopedNode_eq_ok hn
    obtain ⟨hvalids, hnodup, hseen⟩ := ih hrest
    exact ⟨forall_mem_cons.mpr ⟨⟨raw, hvalid⟩, hvalids⟩, nodup_cons_of_fresh hfresh hnodup hseen⟩

theorem ScopedNode.Valid.index_raw {n : ScopedNode} (h : n.Valid raw) {key : String}
    (hkey : key ≠ "parentId") : n.raw.index key = raw.index key := by
  rw [h.raw_eq]
  split
  · rw [Value.index, Value.index, get_removeField hkey]
  · rfl

section

variable [JsonText] [Toposort] {nodes : List ScopedNode} {edges : List (Option String × Value)}
  {globals : Value} {owner : Option String} {g : FlatGraph}

/-- A parsed scope holds the nodes that belong to it. -/
structure ScopeOf (nodes : List ScopedNode) (owner : Option String) (g : FlatGraph) : Prop where
  wellFormed : g.WellFormed
  node : ∀ node ∈ g.nodes, ∃ n ∈ nodes, n.owner = owner ∧ n.id = node.id ∧
    ∃ raw, n.Valid raw ∧ (raw.index "data").index "kind" = .str node.nodeType.asStr
  entry : ∀ n ∈ nodes, n.owner = owner → ∀ raw, n.Valid raw → ∃ node ∈ g.nodes, node.id = n.id ∧
    (raw.index "data").index "kind" = .str node.nodeType.asStr
  member : ∀ r ∈ g.regions, ∀ m ∈ r.memberIds, ∃ n ∈ nodes, n.owner = owner ∧ n.id = m ∧
    (n.raw.get "parentId").isSome = true

theorem scopeOf_of_parseFlat (hvalid : ∀ n ∈ nodes, ∃ raw, n.Valid raw)
    (h : parseFlat (scopeDocument nodes edges globals owner) = .ok g) : ScopeOf nodes owner g := by
  obtain ⟨entries, contained, _, hget, hentries, hnodup, hassembled⟩ := parseFlat_eq_ok h
  have hlist : entries = (nodes.filter (·.owner == owner)).map (·.raw) := by
    have : (scopeDocument nodes edges globals owner).get "nodes" =
        some (.arr ((nodes.filter (·.owner == owner)).map (·.raw))) := rfl
    rw [this] at hget
    cases hget
    rfl
  subst hlist
  -- an entry of the scope's document is a node's, and says what the node is
  have hof : ∀ {n : ScopedNode} {raw : Value} {c : ContainedNode}, n.Valid raw →
      EntryOf n.raw c → n.id = c.node.id ∧
        (raw.index "data").index "kind" = .str c.node.nodeType.asStr := by
    intro n raw c hn hc
    obtain ⟨kind, hkind, htype⟩ := hc.kind
    rw [hn.index_raw (by decide), ofStr?_eq_some htype] at hkind
    have hid := hc.id_eq
    rw [hn.index_raw (by decide), hn.id_eq] at hid
    exact ⟨by simpa using hid, hkind⟩
  have hfind : ∀ {c : ContainedNode}, c ∈ contained → ∃ n ∈ nodes, n.owner = owner ∧
      EntryOf n.raw c := by
    intro c hc
    obtain ⟨entry, hentry, hentryOf⟩ := exists_left hentries hc
    obtain ⟨n, hn, rfl⟩ := mem_map.mp hentry
    obtain ⟨hmem, howner⟩ := mem_filter.mp hn
    exact ⟨n, hmem, by simpa using howner, hentryOf⟩
  refine ⟨hassembled.wellFormed hnodup, fun node hnode => ?_, fun n hn howner raw hraw => ?_,
    fun r hr m hm => ?_⟩
  · rw [hassembled.nodes_eq] at hnode
    obtain ⟨c, hc, rfl⟩ := mem_map.mp hnode
    obtain ⟨n, hn, howner, hentryOf⟩ := hfind hc
    obtain ⟨raw, hraw⟩ := hvalid n hn
    exact ⟨n, hn, howner, (hof hraw hentryOf).1, raw, hraw, (hof hraw hentryOf).2⟩
  · have hmem : n.raw ∈ (nodes.filter (·.owner == owner)).map (·.raw) :=
      mem_map_of_mem (mem_filter.mpr ⟨hn, by simpa using howner⟩)
    obtain ⟨c, hc, hentryOf⟩ := exists_right hentries hmem
    refine ⟨c.node, hassembled.nodes_eq ▸ mem_map_of_mem hc, (hof hraw hentryOf).1.symm,
      (hof hraw hentryOf).2⟩
  · rw [(hassembled.mem_regions hr).1] at hm
    obtain ⟨c, hc, hparent, rfl⟩ := mem_regionOf.mp hm
    obtain ⟨n, hn, howner, hentryOf⟩ := hfind hc
    obtain ⟨raw, hraw⟩ := hvalid n hn
    exact ⟨n, hn, howner, (hof hraw hentryOf).1, by rw [hentryOf.parent _ hparent]; rfl⟩

theorem parseBody_eq_ok {body : FlatGraph} (h : parseBody document = .ok body) :
    parseFlat document = .ok body ∧ ∀ n ∈ body.nodes, n.nodeType ≠ .output := by
  rw [parseBody] at h
  obtain ⟨flat, hflat, h⟩ := bind_eq_ok.mp h
  split at h
  · cases h
  split at h
  · cases h
  · rename_i houtput
    cases h
    exact ⟨hflat, by simpa using houtput⟩

theorem parseBodies_eq_ok {document : Option String → Value} {configs : List (String × LoopConfig)}
    {loops : List (String × LoopConfig × FlatGraph)} (h : parseBodies document configs = .ok loops) :
    loops.map (fun l => (l.1, l.2.1)) = configs ∧
      ∀ l ∈ loops, parseBody (document (some l.1)) = .ok l.2.2 := by
  induction configs generalizing loops with
  | nil =>
    cases h
    exact ⟨rfl, by simp⟩
  | cons entry configs ih =>
    obtain ⟨id, config⟩ := entry
    rw [parseBodies] at h
    obtain ⟨body, hbody, h⟩ := bind_eq_ok.mp h
    obtain ⟨rest, hrest, h⟩ := bind_eq_ok.mp h
    cases h
    obtain ⟨hmap, hbodies⟩ := ih hrest
    refine ⟨by rw [map_cons, hmap], fun l hl => ?_⟩
    rcases mem_cons.mp hl with rfl | hl
    · exact hbody
    · exact hbodies l hl

end

theorem mem_loopConfigs {config : LoopConfig} :
    (id, config) ∈ loopConfigs nodes ↔ ∃ n ∈ nodes, n.id = id ∧ n.config = some config := by
  rw [loopConfigs, mem_insertionSort, mem_filterMap]
  constructor
  · rintro ⟨n, hn, hmap⟩
    obtain ⟨c, hc, heq⟩ := Option.map_eq_some_iff.mp hmap
    cases heq
    exact ⟨n, hn, rfl, hc⟩
  · rintro ⟨n, hn, rfl, hc⟩
    exact ⟨n, hn, by rw [hc]; rfl⟩

theorem nodup_loopConfigs (h : (nodes.map (·.id)).Nodup) :
    ((loopConfigs nodes).map (·.1)).Nodup := by
  have hperm := (perm_insertionSort (fun a b => compare a.1 b.1 ≠ .gt)
    (nodes.filterMap fun n => n.config.map (n.id, ·))).map Prod.fst
  rw [loopConfigs, hperm.nodup_iff]
  refine List.Sublist.nodup ?_ h
  clear h hperm
  induction nodes with
  | nil => exact .slnil
  | cons n nodes ih =>
    rw [filterMap_cons, map_cons]
    rcases n.config with _ | c
    · exact ih.cons _
    · exact ih.cons_cons _

theorem maxIterations_of_parse {config : LoopConfig} (h : LoopConfig.parse v = .ok config) :
    1 ≤ config.maxIterations := by
  rw [LoopConfig.parse] at h
  split at h
  · cases h
  simp only at h
  obtain ⟨hbound, h⟩ := if_throw_eq_ok.mp h
  obtain ⟨_, -, h⟩ := bind_eq_ok.mp h
  obtain ⟨_, -, h⟩ := bind_eq_ok.mp h
  obtain ⟨_, -, h⟩ := bind_eq_ok.mp h
  cases h
  rw [not_or] at hbound
  exact not_lt.mp hbound.1

/-! ### The whole workflow -/

theorem ScopeOf.exists_owned {owner : Option String} {g : FlatGraph} (h : ScopeOf nodes owner g)
    {id : String} (hid : id ∈ g.nodeIds) : ∃ n ∈ nodes, n.id = id ∧ n.owner = owner := by
  obtain ⟨node, hnode, rfl⟩ := FlatGraph.mem_nodeIds.mp hid
  obtain ⟨n, hn, hown, hnid, -⟩ := h.node node hnode
  exact ⟨n, hn, hnid, hown⟩

theorem wellFormed_of_scopes {root : FlatGraph} {loops : List (String × LoopConfig × FlatGraph)}
    (hvalid : ∀ n ∈ nodes, ∃ raw, n.Valid raw) (hnodup : (nodes.map (·.id)).Nodup)
    (hroot : ScopeOf nodes none root)
    (hloops : loops.map (fun l => (l.1, l.2.1)) = loopConfigs nodes)
    (hbodies : ∀ l ∈ loops, ScopeOf nodes (some l.1) l.2.2)
    (houtput : ∀ l ∈ loops, ∀ n ∈ l.2.2.nodes, n.nodeType ≠ .output) :
    WorkflowGraph.WellFormed { root with loops } := by
  have heq : ∀ {n n' : ScopedNode}, n ∈ nodes → n' ∈ nodes → n.id = n'.id → n = n' :=
    fun hn hn' hid => inj_on_of_nodup_map hnodup hn hn' hid
  have hconfig : ∀ {l : String × LoopConfig × FlatGraph}, l ∈ loops →
      ∃ n ∈ nodes, n.id = l.1 ∧ n.config = some l.2.1 := by
    intro l hl
    refine mem_loopConfigs.mp (hloops ▸ ?_)
    exact mem_map_of_mem hl
  have hids : (loops.map (·.1)).Nodup := by
    have := nodup_loopConfigs hnodup
    rwa [← hloops, map_map] at this
  refine
    { root := hroot.wellFormed
      body := fun l hl => (hbodies l hl).wellFormed
      nodup_loops := hids
      loop_node := fun l hl => ?_
      body_disjoint := fun l hl id hid hmem => ?_
      bodies_disjoint := fun l hl l' hl' id hid hid' => ?_
      body_kind := fun l hl n hn => ⟨fun htype => ?_, fun htype => ?_, houtput l hl n hn⟩
      member_kind := fun r hr n hn hmem htype => ?_
      maxIterations_pos := fun l hl => ?_ }
  · obtain ⟨n, hn, hid, hc⟩ := hconfig hl
    obtain ⟨raw, hraw⟩ := hvalid n hn
    have hkind := (hraw.config _ hc).1
    obtain ⟨node, hnode, hnid, hntype⟩ := hroot.entry n hn (hraw.loop hkind).2.1 raw hraw
    refine ⟨node, hnode, hnid.trans hid, ?_⟩
    rw [hkind] at hntype
    revert hntype
    cases node.nodeType <;> simp [NodeType.asStr]
  · obtain ⟨n, hn, rfl, hown⟩ := (hbodies l hl).exists_owned hid
    obtain ⟨n', hn', hnid, hown'⟩ := hroot.exists_owned hmem
    rw [heq hn' hn hnid, hown] at hown'
    cases hown'
  · obtain ⟨n, hn, rfl, hown⟩ := (hbodies l hl).exists_owned hid
    obtain ⟨n', hn', hnid, hown'⟩ := (hbodies l' hl').exists_owned hid'
    rw [heq hn' hn hnid, hown] at hown'
    exact inj_on_of_nodup_map hids hl hl' (Option.some.inj hown')
  · obtain ⟨sn, -, hown, -, raw, hraw, hkind⟩ := (hbodies l hl).node n hn
    rw [htype] at hkind
    rw [(hraw.loop hkind).2.1] at hown
    cases hown
  · obtain ⟨sn, -, hown, -, raw, hraw, hkind⟩ := (hbodies l hl).node n hn
    rw [htype] at hkind
    rw [hraw.iteration hkind] at hown
    cases hown
  · obtain ⟨sn, hsn, hown, hsid, raw, hraw, hkind⟩ := hroot.node n hn
    obtain ⟨sn', hsn', -, hsid', hparent⟩ := hroot.member r hr n.id hmem
    rw [htype] at hkind
    rw [heq hsn' hsn (hsid'.trans hsid.symm), hraw.raw_eq, hown] at hparent
    simp [(hraw.loop hkind).2.2] at hparent
  · obtain ⟨n, hn, -, hc⟩ := hconfig hl
    obtain ⟨raw, hraw⟩ := hvalid n hn
    exact maxIterations_of_parse (hraw.config _ hc).2

section

variable [JsonText] [Toposort]

variable {g : WorkflowGraph}

theorem parseContainers_eq_ok {rawNodes rawEdges : List Value}
    (h : parseContainers document rawNodes rawEdges = .ok g) :
    g.WellFormed ∧ Declared g.toFlatGraph := by
  simp only [parseContainers] at h
  obtain ⟨-, h⟩ := if_throw_eq_ok.mp h
  obtain ⟨nodes, hnodes, h⟩ := bind_eq_ok.mp h
  obtain ⟨hvalid, hnodup, -⟩ := scopedNodes_eq_ok hnodes
  split at h
  · cases h
  obtain ⟨edges, -, h⟩ := bind_eq_ok.mp h
  obtain ⟨root, hroot, h⟩ := bind_eq_ok.mp h
  split at h
  · cases h
  obtain ⟨loops, hloops, h⟩ := bind_eq_ok.mp h
  split at h
  · cases h
  cases h
  obtain ⟨hmap, hbodies⟩ := parseBodies_eq_ok hloops
  exact ⟨wellFormed_of_scopes hvalid hnodup (scopeOf_of_parseFlat hvalid hroot) hmap
    (fun l hl => scopeOf_of_parseFlat hvalid (parseBody_eq_ok (hbodies l hl)).1)
    fun l hl => (parseBody_eq_ok (hbodies l hl)).2, declared_of_parseFlat hroot⟩

/-- A document without Loops is one well-formed scope. -/
theorem wellFormed_of_flat {root : FlatGraph} (h : parseFlat document = .ok root)
    (hplain : ∀ node ∈ (document.index "nodes").asArray.getD [], usesContainers node = false) :
    WorkflowGraph.WellFormed { root with loops := [] } := by
  obtain ⟨entries, contained, _, hget, hentries, hnodup, hassembled⟩ := parseFlat_eq_ok h
  refine
    { root := hassembled.wellFormed hnodup
      body := by simp
      nodup_loops := nodup_nil
      loop_node := by simp
      body_disjoint := by simp
      bodies_disjoint := by simp
      body_kind := by simp
      member_kind := fun r _ n hn _ htype => ?_
      maxIterations_pos := by simp }
  have hmem : n ∈ contained.map (·.node) := hassembled.nodes_eq ▸ hn
  obtain ⟨c, hc, rfl⟩ := mem_map.mp hmem
  obtain ⟨entry, hentry, hentryOf⟩ := exists_left hentries hc
  obtain ⟨kind, hkind, hofStr⟩ := hentryOf.kind
  have hno : usesContainers entry = false := by
    refine hplain entry ?_
    rw [index_of_get hget]
    exact hentry
  rw [ofStr?_eq_some hofStr, htype] at hkind
  simp [usesContainers, hkind, NodeType.asStr] at hno

theorem parseScopedGraph_eq_ok (h : parseScopedGraph document = .ok g) :
    g.WellFormed ∧ Declared g.toFlatGraph := by
  rw [parseScopedGraph] at h
  split at h
  · obtain ⟨nodes, -, h⟩ := bind_eq_ok.mp h
    obtain ⟨edges, -, h⟩ := bind_eq_ok.mp h
    exact parseContainers_eq_ok h
  rename_i hplain
  split at h
  · cases h
  · obtain ⟨root, hroot, rfl⟩ := map_eq_ok.mp h
    exact ⟨wellFormed_of_flat hroot (by simpa using hplain), declared_of_parseFlat hroot⟩

theorem parse_eq_ok (h : WorkflowGraph.parse document = .ok g) :
    g.WellFormed ∧ Declared g.toFlatGraph := by
  rw [WorkflowGraph.parse] at h
  obtain ⟨projected, -, h⟩ := bind_eq_ok.mp h
  obtain ⟨parsed, hparsed, h⟩ := bind_eq_ok.mp h
  split at h
  · cases h
  · cases h
    exact parseScopedGraph_eq_ok hparsed

/-- Every accepted document is well formed. -/
theorem parse_wellFormed (h : WorkflowGraph.parse document = .ok g) : g.WellFormed :=
  (parse_eq_ok h).1

end

end OraDesktop.Workflow

import OraDesktop.Workflow.Rehearsal

/-!
# The budget of automatic retries

A failed attempt that may be retried is superseded, and a waiting one takes its place that carries
the number of retries used and the ids of the attempts before it. The two are copied from row to
row, so what is proved is that the copies are right over a whole history: between two reopenings the
attempts of one slot (a node in a scope and an Iteration round) form one chain, whose first attempt
is started by the scheduler and whose `i`-th successor is automatic retry number `i`.

The argument rests on the table's constraint that a slot has one live row. The live row of a slot
is the last of its chain (`Budgeted.live`), so nothing but a retry of it can enter the slot. A row
that was there when the run was reopened is never retried (`Spent`): `resume_from_failure` refuses
to run over a Running agent, and only interactive agents, which have no policy, are ever Pending.

That a waiting attempt is dispatched once is counted: a wake follows a `begin_node_retry` in the
same call, and `begin_node_retry` removes the marker it needs.

## Main results

* `Step.budgeted` — one step
* `automatic_retries_within_budget` — every history
-/

namespace OraDesktop.Workflow

open Repository Journal Engine List

/-! ### Chains -/

/-- A node in a scope and a round of its Iteration. At most one live row stands in a slot. -/
structure Slot where
  scopeId : String
  nodeId : String
  iteration : Option Nat
  deriving DecidableEq

def Attempt.slot (a : Attempt) : Slot := ⟨a.scopeId, a.nodeId, a.iteration⟩

/-- The policy by which the node is retried, for nodes the graph executes. -/
def Retried (g : WorkflowGraph) (nodeId : String) (policy : AgentRetryPolicy) : Prop :=
  ∃ node, g.executionNode nodeId = some node ∧ retryPolicy node = some policy

/-- The attempt at place `i` of a chain: started by the scheduler, or automatic retry number `i`. -/
def Numbered (g : WorkflowGraph) (chain : List Attempt) (i : Nat) (a : Attempt) : Prop :=
  (i = 0 ∧ a.autoRetry = none ∧ a.retryChain = []) ∨
  (0 < i ∧ a.nodeType = .agent ∧ ∃ policy, Retried g a.nodeId policy ∧ policy.enabled = true ∧
    i ≤ policy.maxRetries ∧ a.autoRetry = some ⟨i, policy.maxRetries⟩ ∧
    a.retryChain = (chain.take i).map (·.id))

/-- The attempts are numbered in order: the budget is counted along the chain, and not by the rows
that are left. -/
def IsRetryChain (g : WorkflowGraph) (chain : List Attempt) : Prop :=
  ∀ i a, chain[i]? = some a → Numbered g chain i a

/-- The attempts of a slot since a state. Rows are never removed, so these are the rows after those
it had. -/
def attemptsSince (w₁ w : World) (slot : Slot) : List Attempt :=
  ((w.rows.drop w₁.rows.length).map (·.attempt)).filter (·.slot = slot)

section

variable {g : WorkflowGraph} {chain : List Attempt} {a b : Attempt}

theorem isRetryChain_nil : IsRetryChain g [] := by
  intro i a h
  simp at h

theorem isRetryChain_singleton (hauto : a.autoRetry = none) (hchain : a.retryChain = []) :
    IsRetryChain g [a] := by
  intro i b h
  obtain ⟨rfl, rfl⟩ : i = 0 ∧ a = b := by simpa [List.getElem?_singleton] using h
  exact .inl ⟨rfl, hauto, hchain⟩

/-- The retries an attempt has used are its place in the chain, and it names those before it. -/
theorem Numbered.used {i : Nat} (h : Numbered g chain i a) :
    (a.autoRetry.map (·.retry)).getD 0 = i ∧ a.retryChain = (chain.take i).map (·.id) := by
  rcases h with ⟨rfl, hauto, hchain⟩ | ⟨-, -, policy, -, -, -, hauto, hchain⟩
  · rw [hauto, hchain]
    exact ⟨rfl, by simp⟩
  · rw [hauto]
    exact ⟨rfl, hchain⟩

/-- The next retry of the last attempt continues the chain. -/
theorem IsRetryChain.retry (h : IsRetryChain g (chain ++ [a])) {policy : AgentRetryPolicy}
    {kind : NodeFailureKind} {retry : Nat} (hagent : b.nodeType = .agent)
    (hpolicy : Retried g b.nodeId policy)
    (hretry : policy.nextRetry kind ((a.autoRetry.map (·.retry)).getD 0) = some retry)
    (hauto : b.autoRetry = some ⟨retry, policy.maxRetries⟩)
    (hchain : b.retryChain = a.retryChain ++ [a.id]) : IsRetryChain g (chain ++ [a] ++ [b]) := by
  have hlast : Numbered g (chain ++ [a]) chain.length a := h _ _ (by simp)
  obtain ⟨hused, hnames⟩ := hlast.used
  rw [hused, AgentRetryPolicy.nextRetry] at hretry
  have hgranted : (policy.enabled = true ∧ chain.length < policy.maxRetries) ∧
      retry = chain.length + 1 := by
    split at hretry
    · rename_i hcond
      simp only [Bool.and_eq_true, decide_eq_true_eq] at hcond
      exact ⟨⟨hcond.1.1, hcond.2⟩, (Option.some.inj hretry).symm⟩
    · cases hretry
  obtain ⟨⟨henabled, hbudget⟩, rfl⟩ := hgranted
  intro i c hc
  rcases Nat.lt_trichotomy i (chain ++ [a]).length with hlt | heq | hgt
  · -- the attempts before keep their places
    rw [List.getElem?_append_left hlt] at hc
    rcases h i c hc with hfirst | ⟨hpos, hc, policy', hp, hen, hle, hau, hch⟩
    · exact .inl hfirst
    · refine .inr ⟨hpos, hc, policy', hp, hen, hle, hau, ?_⟩
      rw [take_append_of_le_length (Nat.le_of_lt hlt)]
      exact hch
  · subst heq
    obtain rfl : b = c := by simpa using hc
    have hlength : (chain ++ [a]).length = chain.length + 1 := by simp
    have hfirst : (chain ++ [a]).take chain.length = chain := take_left' rfl
    have hall : (chain ++ [a] ++ [b]).take (chain ++ [a]).length = chain ++ [a] := take_left' rfl
    refine .inr ⟨by omega, hagent, policy, hpolicy, henabled, by omega, hlength ▸ hauto, ?_⟩
    rw [hchain, hnames, hfirst, hall, map_append]
    rfl
  · rw [List.getElem?_eq_none (by rw [length_append, length_singleton]; omega)] at hc
    cases hc

end

/-! ### One step -/

/-- A row that is not retried any more: it is superseded, has ended, or is not of an automatic
agent. -/
def Spent (g : WorkflowGraph) (r : NodeRun) : Prop :=
  r.isLive = false ∨ r.status.isActive = false ∨ r.nodeType ≠ .agent ∨
    isInteractive g r.nodeId = true

theorem Spent.later {g : WorkflowGraph} {r r' : NodeRun} (h : Spent g r) (hl : r.Later r') :
    Spent g r' := by
  have htype : r'.nodeType = r.nodeType := congrArg (·.nodeType) hl.attempt_eq
  have hnode : r'.nodeId = r.nodeId := congrArg (·.nodeId) hl.attempt_eq
  rcases h with h | h | h | h
  · refine .inl (Bool.eq_false_iff.mpr fun hlive => ?_)
    rw [hl.live hlive] at h
    cases h
  · exact .inr (.inl (by rwa [hl.frozen (.inr h)]))
  · exact .inr (.inr (.inl (by rwa [htype])))
  · exact .inr (.inr (.inr (by rwa [hnode])))

theorem Retried.not_interactive {g : WorkflowGraph} {nodeId : String} {policy : AgentRetryPolicy}
    (h : Retried g nodeId policy) : isInteractive g nodeId = false := by
  obtain ⟨node, hnode, hpolicy⟩ := h
  obtain ⟨config, hconfig, -⟩ := Option.map_eq_some_iff.mp hpolicy
  obtain ⟨hconfig, hauto⟩ := Option.filter_eq_some_iff.mp hconfig
  simpa [isInteractive, hnode, hconfig] using hauto

/-- A state reached from `w₁`, in which the run was reopened or created, before it is reopened
again. -/
structure Budgeted (g : WorkflowGraph) (w₁ w : World) : Prop where
  keyed : w.Keyed
  old : ∀ r ∈ w.rows.take w₁.rows.length, Spent g r
  chain : ∀ slot, IsRetryChain g (attemptsSince w₁ w slot)
  live : ∀ slot a, (attemptsSince w₁ w slot).getLast? = some a → ∃ r ∈ w.rows,
    r.isLive = true ∧ r.attempt = a
  length_le : w₁.rows.length ≤ w.rows.length

/-- The slot of a live row, read off its attempt. -/
theorem World.Keyed.eq_of_slot {w : World} (h : w.Keyed) {r s : NodeRun} (hr : r ∈ w.rows)
    (hs : s ∈ w.rows) (hrl : r.isLive = true) (hsl : s.isLive = true)
    (hslot : r.attempt.slot = s.attempt.slot) : r = s := by
  have : Std.Symm fun r s : NodeRun => r.isLive = true → s.isLive = true →
      ¬(r.scopeId = s.scopeId ∧ r.nodeId = s.nodeId ∧ r.iteration = s.iteration) :=
    ⟨fun _ _ hne hs hr hkey => hne hr hs ⟨hkey.1.symm, hkey.2.1.symm, hkey.2.2.symm⟩⟩
  by_contra hne
  refine h.live_unique.forall hr hs hne hrl hsl ?_
  simpa [Attempt.slot, NodeRun.attempt] using hslot

section

variable {g : WorkflowGraph} {w₁ w w' : World} {e : Event}

/-- The attempts after a change: those before, then the new ones. -/
theorem attemptsSince_append {kept news : List NodeRun} (hle : w₁.rows.length ≤ w.rows.length)
    (hkept : List.Forall₂ NodeRun.Later w.rows kept) (hrows : w'.rows = kept ++ news) (slot : Slot) :
    attemptsSince w₁ w' slot =
      attemptsSince w₁ w slot ++ (news.map (·.attempt)).filter (·.slot = slot) := by
  have hsame : kept.map (·.attempt) = w.rows.map (·.attempt) :=
    Fallible.map_eq_map hkept fun _ _ hr => hr.attempt_eq
  rw [attemptsSince, attemptsSince, hrows, drop_append_of_le_length (hkept.length_eq ▸ hle),
    map_append, filter_append, map_drop, map_drop, hsame]

/-- What is left to show of a change: that the new attempts continue the chains. -/
theorem Budgeted.extend (hb : Budgeted g w₁ w) {kept news : List NodeRun} (hk : w'.Keyed)
    (hkept : List.Forall₂ NodeRun.Later w.rows kept) (hrows : w'.rows = kept ++ news)
    (hchain : ∀ slot, IsRetryChain g
      (attemptsSince w₁ w slot ++ (news.map (·.attempt)).filter (·.slot = slot)))
    (hlive : ∀ slot a, (attemptsSince w₁ w slot ++
      (news.map (·.attempt)).filter (·.slot = slot)).getLast? = some a →
        ∃ r ∈ w'.rows, r.isLive = true ∧ r.attempt = a) : Budgeted g w₁ w' where
  keyed := hk
  old := by
    intro r' hr'
    rw [hrows, take_append_of_le_length (hkept.length_eq ▸ hb.length_le)] at hr'
    obtain ⟨r, hr, hlater⟩ := Fallible.exists_left (forall₂_take _ hkept) hr'
    exact (hb.old r hr).later hlater
  chain := by
    intro slot
    rw [attemptsSince_append hb.length_le hkept hrows]
    exact hchain slot
  live := by
    intro slot a
    rw [attemptsSince_append hb.length_le hkept hrows]
    exact hlive slot a
  length_le := by
    rw [hrows, length_append, ← hkept.length_eq]
    exact Nat.le_add_right_of_le hb.length_le

theorem filter_slot_eq {kept news : List NodeRun} (hk : w'.Keyed) (hrows : w'.rows = kept ++ news)
    (hnews : ∀ r ∈ news, r.isLive = true) (slot : Slot) :
    (news.map (·.attempt)).filter (·.slot = slot) = [] ∨
      ∃ r ∈ news, (news.map (·.attempt)).filter (·.slot = slot) = [r.attempt] := by
  have hpairs : (news.map (·.attempt)).Pairwise fun a b => a.slot ≠ b.slot := by
    have hlive := hk.live_unique
    rw [hrows] at hlive
    rw [pairwise_map]
    refine (pairwise_append.mp hlive).2.1.imp_of_mem fun {r s} hr hs hne hslot => ?_
    refine hne (hnews r hr) (hnews s hs) ?_
    simpa [Attempt.slot, NodeRun.attempt] using hslot
  have hfilter : ((news.map (·.attempt)).filter (·.slot = slot)).Pairwise
      fun a b => a.slot ≠ b.slot := hpairs.filter _
  rcases hN : (news.map (·.attempt)).filter (·.slot = slot) with _ | ⟨a, _ | ⟨b, rest⟩⟩
  · exact .inl hN
  · have ha : a ∈ (news.map (·.attempt)).filter (·.slot = slot) := hN ▸ mem_singleton_self a
    obtain ⟨r, hr, rfl⟩ := mem_map.mp (mem_of_mem_filter ha)
    exact .inr ⟨r, hr, hN⟩
  have hslot : ∀ c ∈ a :: b :: rest, c.slot = slot := by
    intro c hc
    rw [← hN] at hc
    simpa using (mem_filter.mp hc).2
  rw [hN] at hfilter
  have hne := rel_of_pairwise_cons hfilter (mem_cons_self)
  exact absurd ((hslot a (by simp)).trans (hslot b (by simp)).symm) hne

/-- Updates and inserts: a new row opens a chain of its own. -/
theorem Budgeted.moves (hb : Budgeted g w₁ w) {allowed : NodeRun → WorkflowNodeStatus → Prop}
    {news : List NodeRun} (hmoves : RowMoves allowed w news w')
    (hnews : ∀ r ∈ news, r.isLive = true ∧ r.status = .running ∧ r.payload = .empty) :
    Budgeted g w₁ w' := by
  have hk := hmoves.keyed hb.keyed
  obtain ⟨kept, hkept, hrows⟩ := hmoves.split
  have hsome : ∀ r ∈ w.rows, r.isLive = true → ∃ r' ∈ kept, r'.isLive = true ∧
      r'.attempt = r.attempt := by
    intro r hr hlive
    obtain ⟨r', hr', hev, -⟩ := Fallible.exists_right hkept hr
    exact ⟨r', hr', hev.isLive_eq.trans hlive, hev.attempt_eq⟩
  have hopen : ∀ r ∈ news, r.attempt.autoRetry = none ∧ r.attempt.retryChain = [] := by
    intro r hr
    rw [NodeRun.attempt, (hnews r hr).2.2]
    exact ⟨rfl, rfl⟩
  -- a slot with attempts has a live row, which keeps new ones out
  have hclosed : ∀ slot, attemptsSince w₁ w slot ≠ [] →
      (news.map (·.attempt)).filter (·.slot = slot) = [] := by
    intro slot hne
    rcases filter_slot_eq hk hrows (fun r hr => (hnews r hr).1) slot with hnil | ⟨n, hn, hN⟩
    · exact hnil
    obtain ⟨a, ha⟩ := Option.ne_none_iff_exists'.mp (mt List.getLast?_eq_none_iff.mp hne)
    obtain ⟨r, hr, hlive, rfl⟩ := hb.live slot a ha
    obtain ⟨r', hr', hlive', hsame⟩ := hsome r hr hlive
    have hslot : ∀ b ∈ attemptsSince w₁ w slot, b.slot = slot := fun b hb => by
      simpa using (mem_filter.mp hb).2
    have hnslot : n.attempt.slot = slot := by
      have := hN ▸ mem_singleton_self n.attempt
      simpa using (mem_filter.mp this).2
    have hmem : ∀ x, x ∈ kept ∨ x ∈ news → x ∈ w'.rows := fun x hx => hrows ▸ mem_append.mpr hx
    have heq : r' = n := hk.eq_of_slot (hmem r' (.inl hr')) (hmem n (.inr hn)) hlive' (hnews n hn).1
      (by rw [hsame, hnslot, hslot _ (mem_of_getLast? ha)])
    have hids := hk.id_unique
    rw [hrows] at hids
    exact absurd (congrArg (·.id) heq) ((pairwise_append.mp hids).2.2 r' hr' n hn)
  refine hb.extend hk (hkept.imp fun _ _ hr => hr.1.later) hrows (fun slot => ?_) fun slot a ha => ?_
  · by_cases hne : attemptsSince w₁ w slot = []
    · rw [hne, nil_append]
      rcases filter_slot_eq hk hrows (fun r hr => (hnews r hr).1) slot with hnil | ⟨n, hn, hN⟩
      · rw [hnil]
        exact isRetryChain_nil
      · rw [hN]
        exact isRetryChain_singleton (hopen n hn).1 (hopen n hn).2
    · rw [hclosed slot hne, append_nil]
      exact hb.chain slot
  · by_cases hne : attemptsSince w₁ w slot = []
    · rw [hne, nil_append] at ha
      obtain ⟨n, hn, rfl⟩ := mem_map.mp (mem_of_mem_filter (mem_of_getLast? ha))
      exact ⟨n, hrows ▸ mem_append_right _ hn, (hnews n hn).1, rfl⟩
    · rw [hclosed slot hne, append_nil] at ha
      obtain ⟨r, hr, hlive, rfl⟩ := hb.live slot a ha
      obtain ⟨r', hr', hlive', hsame⟩ := hsome r hr hlive
      exact ⟨r', hrows ▸ mem_append_left _ hr', hlive', hsame⟩

/-- A retry continues the chain of the attempt it replaces, which was the last of its slot. -/
theorem Budgeted.retry (hb : Budgeted g w₁ w) (hk : w'.Keyed) {id : String} {failure : NodeFailure}
    {retry : NodeRetryToSchedule} {now : Int} {row : NodeRun} {attempt : Nat} {deleted : World}
    (hrow : w.findNodeRunById id = some row) (hrunning : row.status = .running)
    (hretries : Retries g row failure retry) (hdeleted : deleted.rows =
      w.rows.map fun r => if r.id == id then supersededRow failure now r else r)
    (hrows : w'.rows = deleted.rows ++ [waitingAttempt row attempt retry now]) :
    Budgeted g w₁ w' := by
  obtain ⟨hmem, hlive, hid⟩ := World.findNodeRunById_some hrow
  obtain ⟨hagent, node, policy, hnode, -, hpolicy, hnext, hmax⟩ := hretries
  have hretried : Retried g row.nodeId policy := ⟨node, hnode, hpolicy⟩
  have hothers : ∀ r ∈ w.rows, r ≠ row → r ∈ w'.rows := by
    intro r hr hne
    rw [hrows, hdeleted]
    refine mem_append_left _ (mem_map.mpr ⟨r, hr, if_neg ?_⟩)
    rw [beq_iff_eq]
    exact fun hrid => hne (hb.keyed.eq_of_id hr hmem (hrid.trans hid.symm))
  have hkept : List.Forall₂ NodeRun.Later w.rows deleted.rows := by
    rw [hdeleted]
    exact hb.keyed.later_supersede hrow hrunning
  -- a row from before the reopening would be spent
  have hfresh : row ∈ w.rows.drop w₁.rows.length := by
    rw [← take_append_drop w₁.rows.length w.rows] at hmem
    rcases mem_append.mp hmem with hold | hnew
    · rcases hb.old row hold with h | h | h | h
      · rw [hlive] at h
        cases h
      · rw [hrunning] at h
        cases h
      · exact absurd hagent h
      · rw [hretried.not_interactive] at h
        cases h
    · exact hnew
  obtain ⟨chain, hchain⟩ : ∃ chain, attemptsSince w₁ w row.attempt.slot = chain ++ [row.attempt] := by
    have hin : row.attempt ∈ attemptsSince w₁ w row.attempt.slot :=
      mem_filter.mpr ⟨mem_map_of_mem hfresh, by simp⟩
    obtain ⟨a, ha⟩ := Option.ne_none_iff_exists'.mp
      (mt List.getLast?_eq_none_iff.mp (ne_nil_of_mem hin))
    obtain ⟨r, hr, hrlive, rfl⟩ := hb.live _ a ha
    have hslot : r.attempt.slot = row.attempt.slot := by
      simpa using (mem_filter.mp (mem_of_getLast? ha)).2
    obtain rfl := hb.keyed.eq_of_slot hr hmem hrlive hlive hslot
    exact List.getLast?_eq_some_iff.mp ha
  have hwaits : (waitingAttempt row attempt retry now).attempt.slot = row.attempt.slot := rfl
  refine hb.extend hk hkept hrows (fun slot => ?_) fun slot a ha => ?_
  · by_cases hslot : row.attempt.slot = slot
    · subst hslot
      have hprev := hb.chain row.attempt.slot
      rw [hchain] at hprev
      rw [hchain, map_singleton, filter_cons_of_pos (by simpa using hwaits), filter_nil]
      exact hprev.retry hagent hretried hnext (by rw [← hmax]; rfl) rfl
    · rw [map_singleton, filter_cons_of_neg (by simpa [hwaits] using hslot), filter_nil,
        append_nil]
      exact hb.chain slot
  · by_cases hslot : row.attempt.slot = slot
    · rw [map_singleton, filter_cons_of_pos (by simpa [hwaits] using hslot),
        filter_nil, List.getLast?_concat, Option.some_inj] at ha
      exact ⟨waitingAttempt row attempt retry now, by simp [hrows], rfl, ha⟩
    rw [map_singleton, filter_cons_of_neg (by simpa [hwaits] using hslot), filter_nil,
      append_nil] at ha
    obtain ⟨r, hr, hrlive, rfl⟩ := hb.live slot a ha
    refine ⟨r, hothers r hr ?_, hrlive, rfl⟩
    rintro rfl
    exact hslot (by simpa using (mem_filter.mp (mem_of_getLast? ha)).2)

end

section

variable [JsonText] {g : WorkflowGraph} {w₁ w w' : World} {e : Event}

/-- Every step but a reopening one keeps the chains. -/
theorem Step.budgeted (h : Step g w e w') (hreopens : e.reopens = false) (hb : Budgeted g w₁ w) :
    Budgeted g w₁ w' := by
  have hchange := h.rowChange hb.keyed
  rcases hchange.kinds with ⟨allowed, news, hmoves, -, hnews, -⟩ | ⟨id, failure, retry, now, row,
    attempt, deleted, rfl, hrow, hrunning, hdeleted, hinserts⟩ | ⟨hreopens', -⟩
  · exact hb.moves hmoves hnews
  · obtain ⟨row', hrow', hretries⟩ := h.1
    obtain rfl : row = row' := Option.some.inj (hrow.symm.trans hrow')
    exact hb.retry (hchange.keyed hb.keyed) hrow hrunning hretries hdeleted
      hinserts.rows_eq
  · rw [hreopens] at hreopens'
    cases hreopens'

/-! ### Reopening a run -/

/-- Only attempts that take turns with a human are Pending. -/
def Parked (g : WorkflowGraph) (w : World) : Prop :=
  ∀ r ∈ w.rows, r.isLive = true → r.status = .pending → isInteractive g r.nodeId = true

theorem Step.parked (h : Step g w e w') (hk : w.Keyed) (hp : Parked g w) : Parked g w' := by
  intro r' hr' hlive' hpending
  rcases (h.rowChange hk).kinds with ⟨allowed, news, hmoves, -, hnews, hallowed⟩ | ⟨id, failure, retry,
    now, row, attempt, deleted, rfl, -, -, hdeleted, hinserts⟩ | ⟨-, p, hrows⟩
  · rcases hmoves.origin hr' with ⟨r, hr, hev, hstatus⟩ | hnew
    · have hlive : r.isLive = true := hev.isLive_eq ▸ hlive'
      rw [hev.nodeId_eq]
      rcases hstatus with hsame | hmoved
      · exact hp r hr hlive (hsame ▸ hpending)
      · obtain ⟨id, source, rfl, rfl⟩ := hallowed r _ hmoved hpending
        exact h.1.2.1 r (hk.findNodeRunById hr hlive)
    · rw [(hnews r' hnew).2.1] at hpending
      cases hpending
  · rw [hinserts.rows_eq, hdeleted] at hr'
    rcases mem_append.mp hr' with hold | hnew
    · obtain ⟨r, hr, rfl⟩ := mem_map.mp hold
      revert hlive' hpending
      split
      · exact nofun
      · exact hp r hr
    · rw [mem_singleton.mp hnew] at hpending
      cases hpending
  · rw [hrows] at hr'
    obtain ⟨r, hr, rfl⟩ := mem_map.mp hr'
    revert hlive' hpending
    split
    · exact nofun
    · exact hp r hr

/-- After a reopening no row is retried: restarting supersedes them all, and resuming is refused
while an agent is Running. -/
theorem Step.spent (h : Step g w e w') (hreopens : e.reopens = true) (hp : Parked g w) :
    ∀ r ∈ w'.rows, Spent g r := by
  cases e with
  | restartRun newRootScopeId =>
    obtain ⟨-, -, hrows⟩ := restartRun_commits h.2
    intro r' hr'
    rw [hrows] at hr'
    obtain ⟨r, -, rfl⟩ := mem_map.mp hr'
    split
    · exact .inl rfl
    · rename_i hlive
      exact .inl (Bool.eq_false_iff.mpr hlive)
  | resumeFromFailure cleared =>
    obtain ⟨hblocked, -, hrows, -⟩ := resumeFromFailure_commits h.2
    intro r' hr'
    rw [hrows] at hr'
    obtain ⟨r, hr, rfl⟩ := mem_map.mp hr'
    split
    · exact .inl rfl
    by_cases hlive : r.isLive = true
    · rcases hstatus : r.status with _ | _ | _ | _ | _
      · exact .inr (.inr (.inr (hp r hr hlive hstatus)))
      · refine .inr (.inr (.inl ?_))
        rcases hblocked r hr hlive hstatus with h | h <;> simp [h]
      all_goals exact .inr (.inl (by rw [hstatus]; rfl))
    · exact .inl (Bool.eq_false_iff.mpr hlive)
  | _ => cases hreopens

omit [JsonText] in
/-- A state in which no row is retried begins new chains. -/
theorem Budgeted.init (hk : w.Keyed) (hspent : ∀ r ∈ w.rows, Spent g r) : Budgeted g w w := by
  have hnone : ∀ slot, attemptsSince w w slot = [] := fun slot => by simp [attemptsSince]
  refine ⟨hk, fun r hr => hspent r (mem_of_mem_take hr), fun slot => ?_, fun slot a ha => ?_,
    Nat.le_refl _⟩
  · rw [hnone]
    exact isRetryChain_nil
  · rw [hnone] at ha
    cases ha

end

/-! ### Dispatching a waiting attempt -/

/-- The attempt an event hands to the executor. -/
def Event.dispatched : Event → Option String
  | .dispatch id _ _ | .wake id _ _ => some id
  | _ => none

def Event.begins : Event → Option String
  | .beginNodeRetry id _ => some id
  | _ => none

/-- How often a journal hands the attempt to the executor. -/
def dispatches (id : String) (journal : List (Event × World)) : Nat :=
  journal.countP fun entry => entry.1.dispatched = some id

section

variable {w w' : World} {id : String} {now : Int}

theorem beginNodeRetry_unmarks (h : Commits (Repository.beginNodeRetry id now) w w') :
    (∃ r ∈ w.rows, r.id = id ∧ r.isWaiting = true) ∧
      ∃ r ∈ w'.rows, r.id = id ∧ r.isWaiting = false := by
  obtain ⟨result, h⟩ := h
  unfold Repository.beginNodeRetry at h
  split at h
  · cases h
  rename_i row hrow
  obtain ⟨hmem, hlive, hid⟩ := World.findNodeRunById_some hrow
  split at h
  · cases h
  rename_i wait hwait
  refine ⟨⟨row, hmem, hid, by rw [NodeRun.isWaiting, hwait]; rfl⟩, ?_⟩
  have hrewritten : ∀ f : NodeRun → NodeRun, (f row).id = id ∧ (f row).isWaiting = false →
      ∃ r ∈ (w.updateRows (fun r => r.isLive && r.id == id) f).rows, r.id = id ∧
        r.isWaiting = false := by
    intro f hf
    refine ⟨f row, (World.mem_updateRows ..).mpr ⟨row, hmem, if_pos ?_⟩, hf⟩
    simp [hlive, hid]
  dsimp only at h
  split at h
  · cases h
  split at h
  · cases h
    exact hrewritten _ ⟨hid, rfl⟩
  · split at h
    · cases h
    · cases h
      exact hrewritten _ ⟨hid, rfl⟩

theorem id_of_beginNodeRetry {row : NodeRun}
    (h : Repository.beginNodeRetry id now w = .ok (.commit (.started row) w')) : row.id = id := by
  unfold Repository.beginNodeRetry at h
  split at h
  · cases h
  rename_i found hfound
  split at h
  · cases h
  dsimp only at h
  split at h
  · cases h
  split at h
  · cases h
  · split at h
    · cases h
    · cases h
      exact (World.findNodeRunById_some hfound).2.2

theorem transact_eq {ρ : Type} (event : Event) (tx : Transaction ρ) (n : Nat) :
    transact event tx w n = match tx w with
      | .error e => ⟨.error (.repository e), w, n, []⟩
      | .ok (.rollback result) => ⟨.ok result, w, n, []⟩
      | .ok (.commit result w') => ⟨.ok result, w', n, [(event, w')]⟩ := by
  rw [transact, Proc.bind_eq, Proc.bind, Proc.get]
  dsimp only
  rcases tx w with e | ⟨result, w'⟩ | result <;> rfl

variable [JsonText] {g : WorkflowGraph}

theorem wakes_failNode (env : Env) (id id' : String) {failure : NodeFailure}
    (hkind : failure.kind.autoRetry = false) (fuel n : Nat) :
    (failNode g env id failure fuel w n).journal.countP
      (fun entry => entry.1.wakes = some id') = 0 := by
  have htraced : Safe (Plain g) (fun _ => True) (failNode g env id failure fuel) :=
    traced_failNode id failure fuel fun hauto => by rw [hkind] at hauto; cases hauto
  have hpath := (htraced w n trivial).1
  refine countP_eq_zero.mpr fun entry hentry => ?_
  rw [hpath.forall_label (p := (·.wakes = none)) (fun _ _ _ h => h.unwoken.2) entry hentry]
  simp

/-- The journal of a wake: a wait is ended, and then at most that attempt is handed over. -/
theorem journal_wakeRetry (env : Env) (id id' : String) (fuel n : Nat) :
    (wakeRetry g env id fuel w n).journal = [] ∨
      ∃ now t rest, (wakeRetry g env id fuel w n).journal = (.beginNodeRetry id now, t) :: rest ∧
        rest.countP (fun entry => entry.1.wakes = some id') ≤ if id = id' then 1 else 0 := by
  have hnow : now env w n = ⟨.ok (env.clock n), w, n + 1, []⟩ := rfl
  rw [wakeRetry, Proc.journal_bind, hnow]
  dsimp only
  rw [nil_append, Proc.journal_bind, transact_eq]
  rcases htx : Repository.beginNodeRetry id (env.clock n) w with e | ⟨result, w'⟩ | result
  · exact .inl rfl
  · refine .inr ⟨env.clock n, w', _, rfl, ?_⟩
    cases result with
    | started row =>
      obtain rfl := id_of_beginNodeRetry htx
      have hfail : ∀ failure : NodeFailure, failure.kind.autoRetry = false →
          (failNode g env row.id failure fuel w' (n + 1)).journal.countP
            (fun entry => entry.1.wakes = some id') ≤ if row.id = id' then 1 else 0 :=
        fun _ hkind => (wakes_failNode env row.id id' hkind fuel (n + 1)).trans_le (Nat.zero_le _)
      -- the target is still there, or the attempt fails
      dsimp only [List.append, Proc.bind_eq, Proc.bind, Proc.get]
      generalize ((retryTarget g w' row).bind fun target =>
        (target.1.node row.nodeId).map fun node => (node, target.2)) = target
      rcases target with _ | ⟨node, pool⟩
      · exact hfail (.new .invalidRunPayload _) rfl
      by_cases hasync : node.nodeType.runtime = some .async
      · simp only [if_pos hasync]
        change List.countP _ [(Event.wake row.id row.nodeId pool, w')] ≤ _
        simp [countP_singleton, Event.wakes]
      · simp only [if_neg hasync]
        exact hfail (.new .invalidRunPayload _) rfl
    | _ => exact Nat.zero_le _
  · cases result with
    | started row => exact absurd htx beginNodeRetry_ne_rollback
    | _ => exact .inl rfl

/-- In no prefix of a call's journal are there more wakes than waits that ended. -/
theorem wakes_le_begins_of_initial (id' : String) (call : Call) {j : List (Event × World)}
    (h : j <+: (execute g call w 0).journal) :
    j.countP (fun entry => entry.1.wakes = some id') ≤
      j.countP (fun entry => entry.1.begins = some id') := by
  by_cases hcall : ∃ id, call.op = .wakeRetry id
  · obtain ⟨id, hid⟩ := hcall
    rw [execute, hid] at h
    rcases journal_wakeRetry (g := g) (w := w) call.env id id' call.fuel 0 with
      hnil | ⟨now, t, rest, hcons, hrest⟩
    · rw [hnil] at h
      rw [prefix_nil.mp h]
      exact Nat.le_refl _
    rw [hcons] at h
    rcases prefix_cons_iff.mp h with rfl | ⟨k, rfl, hk⟩
    · exact Nat.le_refl _
    have hle := hk.sublist.countP_le (p := fun entry => decide (entry.1.wakes = some id'))
    have hbegins : (if decide ((Event.beginNodeRetry id now).begins = some id') = true then 1
        else 0) = if id = id' then 1 else 0 := by simp [Event.begins]
    rw [countP_cons_of_neg (by simp [Event.wakes]), countP_cons, hbegins]
    omega
  · have hpath := (unwoken_execute (g := g) call (not_exists.mp hcall) w 0 trivial).1
    have hnone : j.countP (fun entry => entry.1.wakes = some id') = 0 := by
      refine countP_eq_zero.mpr fun entry hentry => ?_
      rw [hpath.forall_label (p := (·.wakes = none)) (fun _ _ _ h => h.2) entry (h.mem hentry)]
      simp
    rw [hnone]
    exact Nat.zero_le _

variable {journal : List (Event × World)}

theorem Runs.wakes_le_begins {w₀ : World} (h : Runs g w₀ journal w) (id : String) :
    journal.countP (fun entry => entry.1.wakes = some id) ≤
      journal.countP (fun entry => entry.1.begins = some id) := by
  induction h with
  | init h => exact Nat.le_refl _
  | call before call hinitial ih =>
    rw [countP_append, countP_append]
    exact Nat.add_le_add ih (wakes_le_begins_of_initial id call hinitial)

section

variable (hpath : Path (Step g) w journal w')

include hpath

theorem not_begins (hk : w.Keyed) (hrow : ∃ r ∈ w.rows, r.id = id ∧ r.isWaiting = false) :
    ∀ entry ∈ journal, entry.1.begins ≠ some id := by
  induction hpath with
  | nil => simp
  | @cons w t _ e journal step rest ih =>
    obtain ⟨r, hr, hid, hwaits⟩ := hrow
    refine forall_mem_cons.mpr ⟨fun hbegins => ?_, ih (step.keyed hk) ?_⟩
    · cases e with
      | beginNodeRetry id' now =>
        obtain rfl : id' = id := Option.some.inj hbegins
        obtain ⟨s, hs, hsid, hswaits⟩ := (beginNodeRetry_unmarks step.2).1
        obtain rfl := hk.eq_of_id hr hs (hid.trans hsid.symm)
        rw [hwaits] at hswaits
        cases hswaits
      | _ => cases hbegins
    · obtain ⟨kept, news, hkept, hrows⟩ := (step.rowChange hk).split hk
      obtain ⟨r', hr', hlater⟩ := Fallible.exists_right hkept hr
      refine ⟨r', hrows ▸ mem_append_left _ hr', ?_, Bool.eq_false_iff.mpr fun h => ?_⟩
      · exact (congrArg (·.id) hlater.attempt_eq).trans hid
      · rw [hlater.waits h] at hwaits
        cases hwaits

theorem begins_le_one (hk : w.Keyed) (id : String) :
    journal.countP (fun entry => entry.1.begins = some id) ≤ 1 := by
  induction hpath with
  | nil => exact Nat.zero_le _
  | @cons w t _ e journal step rest ih =>
    have hlater := ih (step.keyed hk)
    rw [countP_cons]
    split
    · rename_i hbegins
      have hnone : journal.countP (fun entry => entry.1.begins = some id) = 0 := by
        cases e with
        | beginNodeRetry id' now =>
          obtain rfl : id' = id := by simpa [Event.begins] using hbegins
          refine countP_eq_zero.mpr fun entry hentry => ?_
          simpa using not_begins rest (step.keyed hk) (beginNodeRetry_unmarks step.2).2 entry hentry
        | _ => simp [Event.begins] at hbegins
      rw [hnone]
    · simpa using hlater

theorem attempts_grow_of_path (hk : w.Keyed) :
    w.rows.map (·.attempt) <+: w'.rows.map (·.attempt) := by
  induction hpath with
  | nil => exact prefix_rfl
  | cons step rest ih => exact (step.attempts_grow hk).trans (ih (step.keyed hk))

/-- Only an attempt that never waited is handed over right when it is inserted. -/
theorem not_dispatch (hk : w.Keyed) {r : NodeRun}
    (hr : r ∈ w'.rows) (hauto : r.payload.autoRetry ≠ none) :
    ∀ entry ∈ journal, ∀ nodeId pool, entry.1 ≠ .dispatch r.id nodeId pool := by
  induction hpath with
  | nil => simp
  | @cons w t _ e journal step rest ih =>
    refine forall_mem_cons.mpr ⟨fun nodeId pool heq => ?_, ih (step.keyed hk) hr⟩
    obtain rfl : e = .dispatch r.id nodeId pool := heq
    obtain ⟨s, hs, -, hid, -, hpayload, -⟩ := step.1
    have hpath := Path.cons step rest
    have hin := (attempts_grow_of_path hpath hk).mem (mem_map_of_mem hs)
    obtain ⟨r', hr', hsame⟩ := mem_map.mp hin
    have hk' := hpath.invariant (fun _ _ _ hk h => h.keyed hk) hk
    obtain rfl : r' = r := hk'.eq_of_id hr' hr ((congrArg (·.id) hsame).trans hid)
    refine hauto ((congrArg (·.autoRetry) hsame).trans ?_)
    rw [NodeRun.attempt, hpayload]
    rfl

end

/-- An attempt that waited is handed to the executor at most once. -/
theorem Runs.dispatches_le_one {w₀ : World} (hruns : Runs g w₀ journal w) {r : NodeRun}
    (hr : r ∈ w.rows) (hauto : r.payload.autoRetry ≠ none) : dispatches r.id journal ≤ 1 := by
  obtain ⟨hcreated, hpath⟩ := hruns.path
  have hnot := not_dispatch hpath hcreated.keyed hr hauto
  have hwakes : dispatches r.id journal = journal.countP fun entry => entry.1.wakes = some r.id := by
    refine countP_congr fun ⟨e, s⟩ hentry => ?_
    cases e with
    | dispatch id nodeId pool =>
      have hne : id ≠ r.id := by
        rintro rfl
        exact hnot _ hentry nodeId pool rfl
      simp [Event.dispatched, Event.wakes, hne]
    | _ => simp [Event.dispatched, Event.wakes]
  rw [hwakes]
  exact (hruns.wakes_le_begins r.id).trans (begins_le_one hpath hcreated.keyed r.id)

/-! ### The budget -/

/-- Since a run was created or last reopened, by `restart` or `resume_from_failure`, the attempts of
every slot — a new Loop round brings new slots — are one started by the scheduler and then automatic
retries `1, 2, …`, no more than the node's policy grants, each of which lists the attempts of the
chain before it, oldest first; and an attempt that waited is dispatched at most once. -/
theorem automatic_retries_within_budget {w₀ : World} {before after : List (Event × World)}
    (hruns : Runs g w₀ (before ++ after) w)
    (hbefore : ∀ entry, before.getLast? = some entry → entry.1.reopens = true)
    (hafter : ∀ entry ∈ after, entry.1.reopens = false) :
    (∀ slot, IsRetryChain g (attemptsSince (lastState w₀ before) w slot)) ∧
      ∀ r ∈ w.rows, r.payload.autoRetry ≠ none → dispatches r.id (before ++ after) ≤ 1 := by
  obtain ⟨hcreated, hpath⟩ := hruns.path
  obtain ⟨hfirst, hlast⟩ := hpath.of_append
  have hinit : Budgeted g (lastState w₀ before) (lastState w₀ before) := by
    rcases eq_nil_or_concat before with rfl | ⟨earlier, ⟨e, s⟩, rfl⟩
    · refine .init hcreated.keyed fun r hr => ?_
      rw [lastState, hcreated.eq.1] at hr
      cases hr
    rw [concat_eq_append] at hfirst hbefore ⊢
    obtain ⟨hearlier, hstep⟩ := hfirst.of_append
    rw [lastState_append] at hstep ⊢
    have hinv := hearlier.invariant (P := fun w => w.Keyed ∧ Parked g w)
      (fun _ _ _ hp h => ⟨h.keyed hp.1, h.parked hp.1 hp.2⟩)
      ⟨hcreated.keyed, fun r hr => by rw [hcreated.eq.1] at hr; cases hr⟩
    cases hstep with
    | cons hstep hnil =>
      cases hnil
      exact .init (hstep.keyed hinv.1) (hstep.spent (hbefore (e, s) (by simp)) hinv.2)
  have hopen : Along (fun _ e => Event.reopens e = false) (lastState w₀ before) after :=
    along_of_forall fun entry hentry _ => hafter entry hentry
  have hbudgeted := (hlast.along hopen).invariant (fun _ _ _ hb h => h.1.budgeted h.2 hb) hinit
  exact ⟨hbudgeted.chain, fun r hr hauto => hruns.dispatches_le_one hr hauto⟩

end

/-- An agent with two automatic retries and no delay between them. -/
def retryingAgent (data : List (String × Value)) : Value :=
  Document.node "agent" "agent" (("agentConfig", .obj [("retry", .obj [("enabled", .bool true),
    ("maxRetries", Value.ofNat 2), ("initialDelaySeconds", Value.ofNat 0)])]) :: data)

/-- An agent that fails is retried once, although its retry is woken twice. -/
theorem automatic_retries_within_budget_woken_twice :
    letI := JsonText.blank
    ∃ g w₀ journal w, Runs g w₀ journal w ∧
      (w.rows.any fun r => r.payload.autoRetry = some ⟨1, 2⟩) = true ∧
      (∀ slot, IsRetryChain g (attemptsSince w₀ w slot)) ∧
      ∀ r ∈ w.rows, r.payload.autoRetry ≠ none → dispatches r.id journal ≤ 1 := by
  let := JsonText.blank
  let := Toposort.documentOrder
  have hplay : rehearse (Document.ofParts [Document.node "start" "start", retryingAgent []]
      [Document.edge "start" "agent"]) none
      [⟨.start, .tagged "a", 10⟩, ⟨.failNode "an3" (.new .session "lost"), .tagged "b", 10⟩,
        ⟨.wakeRetry "bn1", .tagged "c", 10⟩, ⟨.wakeRetry "bn1", .tagged "d", 10⟩]
      (fun _ journal w => (w.rows.any fun r => r.payload.autoRetry = some ⟨1, 2⟩) &&
        journal.all fun entry => !entry.1.reopens) = true := by
    decide +kernel
  obtain ⟨g, w₀, journal, w, -, hruns, hcheck⟩ := runs_of_rehearse hplay
  rw [Bool.and_eq_true] at hcheck
  have hfirst : Runs g w₀ ([] ++ journal) w := hruns
  obtain ⟨hchain, honce⟩ := automatic_retries_within_budget hfirst (fun _ h => by cases h)
    fun entry hentry => by simpa using all_eq_true.mp hcheck.2 entry hentry
  exact ⟨g, w₀, journal, w, hruns, hcheck.1, hchain, honce⟩

end OraDesktop.Workflow

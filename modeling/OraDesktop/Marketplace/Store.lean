import OraDesktop.Lib.Journal
import OraDesktop.Marketplace.Source
import Mathlib.Data.List.Nodup
import Mathlib.Data.List.Pairwise

/-!
# The store of marketplace sources

The configured sources are rows with the text the user gave. A source that is added or edited must
have another canonical text than all others, and binds a namespace to it for ever; the namespace
table holds one namespace for a canonical text and one canonical text for a namespace.

The registry source of a row is made from the parsed URL. Rows with different canonical texts are
different sources only as far as parsing leaves the canonical text as it is, and their checkouts are
different directories only as far as the URL has no empty or relative path segments. Where the
configured URLs are such, and none continues another one with `registry`, every source has an
identity of its own.

## Main results

* `Store.Sound.apply`, `Store.Sound.run` — what every call and every run preserves
* `one_identity_per_source`
-/

namespace OraDesktop.Marketplace

open List PluginNamespace

/-! ### Rows -/

structure MarketplaceSource where
  url : Chars
  branch : Chars
  useProxy : Bool
  enabled : Bool
  deriving DecidableEq

/-- A row of `plugin_marketplace_source`. Its URL is kept as it was entered, and is canonicalised
whenever it is used. -/
structure SourceRow extends MarketplaceSource where
  position : Nat
  deriving DecidableEq

structure UpdateRequest where
  url : Chars
  newUrl : Chars
  branch : Chars
  useProxy : Bool
  enabled : Bool

/-- The rows of `plugin_source_namespace`, with the two keys of the table. -/
structure Bindings where
  rows : List (Chars × Chars)
  urls_nodup : (rows.map (·.1)).Nodup
  namespaces_nodup : (rows.map (·.2)).Nodup

theorem nodup_map_append_singleton {α β : Type} {f : α → β} {l : List α} {a : α}
    (h : (l.map f).Nodup) (ha : f a ∉ l.map f) : ((l ++ [a]).map f).Nodup := by
  rw [map_append, map_singleton, ← concat_eq_append]
  exact h.concat ha

/-- Binds a namespace unless one is bound, and answers the one that is. Nothing where the namespace
belongs to another URL. -/
def Bindings.bind (bindings : Bindings) (canonicalUrl value : Chars) : Option (Bindings × Chars) :=
  match h : bindings.rows.find? fun row => decide (row.1 = canonicalUrl) with
  | some row => some (bindings, row.2)
  | none =>
    if hvalue : value ∈ bindings.rows.map (·.2) then none
    else
      some (⟨bindings.rows ++ [(canonicalUrl, value)],
        nodup_map_append_singleton bindings.urls_nodup fun hmem => by
          obtain ⟨row, hrow, heq⟩ := mem_map.mp hmem
          simpa [heq] using List.find?_eq_none.mp h row hrow,
        nodup_map_append_singleton bindings.namespaces_nodup hvalue⟩, value)

structure Store where
  sources : List SourceRow
  bindings : Bindings

inductive StoreError where
  | duplicate (url : Chars)
  | notFound (url : Chars)
  | validation (error : RegistryError)
  | «namespace» (error : PluginIdError)
  | database
  deriving DecidableEq

def Store.empty : Store := ⟨[], ⟨[], nodup_nil, nodup_nil⟩⟩

section Standards

variable [UrlStandard] [Sha256]

def checkedSource (source : MarketplaceSource) («namespace» : PluginNamespace)
    (sourcesRoot : Path) : Except RegistryError RegistrySource :=
  RegistrySource.tryFromGit source.url «namespace» source.branch sourcesRoot

/-! ### Calls

A call answers whether it is accepted, and leaves the store it has written to; a namespace that was
bound stays bound where a later step refuses the call. -/

namespace Store

omit [UrlStandard] in
def namespaceFor (store : Store) (url : Chars) : Except StoreError PluginNamespace × Store :=
  let canonical := canonicalRepositoryUrl url
  if canonical = canonicalRepositoryUrl defaultMarketplaceUrl then (.ok .official, store)
  else
    match store.bindings.bind canonical (PluginNamespace.deriveFromCanonicalUrl canonical).value with
    | none => (.error .database, store)
    | some (bindings, bound) =>
      match PluginNamespace.parse bound with
      | .error error => (.error (.namespace error), { store with bindings := bindings })
      | .ok «namespace» => (.ok «namespace», { store with bindings := bindings })

def registrySource (sourcesRoot : Path) (store : Store) (source : MarketplaceSource) :
    Except StoreError RegistrySource × Store :=
  match store.namespaceFor source.url with
  | (.error error, store) => (.error error, store)
  | (.ok «namespace», store) =>
    match checkedSource source «namespace» sourcesRoot with
    | .error error => (.error (.validation error), store)
    | .ok source => (.ok source, store)

def insert (store : Store) (source : MarketplaceSource) (position : Nat) :
    Except StoreError Unit × Store :=
  match store.namespaceFor source.url with
  | (.error error, store) => (.error error, store)
  | (.ok _, store) =>
    if source.url ∈ store.sources.map (·.url) then (.error .database, store)
    else (.ok (), { store with sources := store.sources ++ [{ source with position := position }] })

def nextPosition (store : Store) : Nat :=
  match (store.sources.map (·.position)).max? with
  | none => 0
  | some highest => highest + 1

def add (sourcesRoot : Path) (store : Store) (source : MarketplaceSource) :
    Except StoreError Unit × Store :=
  if store.sources.any fun existing =>
      decide (canonicalRepositoryUrl existing.url = canonicalRepositoryUrl source.url) then
    (.error (.duplicate source.url), store)
  else
    match checkedSource source .official sourcesRoot with
    | .error error => (.error (.validation error), store)
    | .ok _ => store.insert source store.nextPosition

def delete (store : Store) (url : Chars) : Except StoreError Unit × Store :=
  if store.sources.any fun row => decide (row.url = url) then
    (.ok (), { store with sources := store.sources.filter fun row => decide (row.url ≠ url) })
  else (.error (.notFound url), store)

def edited (request : UpdateRequest) (row : SourceRow) : SourceRow :=
  if row.url = request.url then
    { url := request.newUrl, branch := request.branch, useProxy := request.useProxy,
      enabled := request.enabled, position := row.position }
  else row

def update (sourcesRoot : Path) (store : Store) (request : UpdateRequest) :
    Except StoreError Unit × Store :=
  if store.sources.all fun row => decide (row.url ≠ request.url) then
    (.error (.notFound request.url), store)
  else if store.sources.any fun row => decide (row.url ≠ request.url ∧
      canonicalRepositoryUrl row.url = canonicalRepositoryUrl request.newUrl) then
    (.error (.duplicate request.newUrl), store)
  else
    match store.namespaceFor request.newUrl with
    | (.error error, store) => (.error error, store)
    | (.ok «namespace», store) =>
      match checkedSource ⟨request.newUrl, request.branch, request.useProxy, request.enabled⟩
          «namespace» sourcesRoot with
      | .error error => (.error (.validation error), store)
      | .ok _ =>
        if store.sources.any fun row => decide (row.url ≠ request.url ∧ row.url = request.newUrl) then
          (.error .database, store)
        else (.ok (), { store with sources := store.sources.map (edited request) })

def defaultSource : MarketplaceSource :=
  { url := defaultMarketplaceUrl, branch := "main".toList, useProxy := false, enabled := true }

def opened (store : Store) : Except StoreError Unit × Store :=
  if store.sources = [] then store.insert defaultSource 0 else (.ok (), store)

end Store

inductive Call where
  | opened
  | add (source : MarketplaceSource)
  | update (request : UpdateRequest)
  | delete (url : Chars)

def Store.apply (sourcesRoot : Path) (store : Store) : Call → Except StoreError Unit × Store
  | .opened => store.opened
  | .add source => store.add sourcesRoot source
  | .update request => store.update sourcesRoot request
  | .delete url => store.delete url

/-! ### What a call does to the namespaces -/

/-- The namespace of a canonical URL: reserved for the default marketplace, and otherwise the one in
the table. -/
def Store.Names (store : Store) (canonicalUrl : Chars) («namespace» : PluginNamespace) : Prop :=
  if canonicalUrl = canonicalRepositoryUrl defaultMarketplaceUrl then «namespace» = .official
  else (canonicalUrl, «namespace».value) ∈ store.bindings.rows

/-- Every namespace in the table is the one derived from its URL. -/
def Store.Derived (store : Store) : Prop :=
  ∀ row ∈ store.bindings.rows, row.2 = (PluginNamespace.deriveFromCanonicalUrl row.1).value

/-- The call has only bound namespaces. -/
structure Store.Binds (store after : Store) : Prop where
  sources : after.sources = store.sources
  bound : store.bindings.rows ⊆ after.bindings.rows

variable {ns : PluginNamespace} {url : Chars}

section Bindings

omit [UrlStandard] [Sha256]

theorem Store.Binds.refl (store : Store) : store.Binds store := ⟨rfl, fun _ h => h⟩

theorem Store.Names.of_binds {store after : Store} (h : store.bindings.rows ⊆ after.bindings.rows)
    (hnames : store.Names url ns) : after.Names url ns := by
  unfold Store.Names at hnames ⊢
  split at hnames
  next hdefault => rwa [if_pos hdefault]
  next hdefault =>
    rw [if_neg hdefault]
    exact h hnames

theorem Bindings.bind_eq_some {bindings after : Bindings} {url value bound : Chars}
    (h : bindings.bind url value = some (after, bound)) :
    bindings.rows ⊆ after.rows ∧ (url, bound) ∈ after.rows ∧
      ∀ row ∈ after.rows, row ∈ bindings.rows ∨ row = (url, value) := by
  unfold Bindings.bind at h
  split at h
  next row hfound =>
    cases h
    have hurl : row.1 = url := by simpa using List.find?_some hfound
    refine ⟨fun _ h => h, ?_, fun _ h => .inl h⟩
    rw [← hurl]
    exact mem_of_find?_eq_some hfound
  next =>
    split at h
    next => cases h
    next =>
      cases h
      refine ⟨subset_append_left _ _, by simp, fun row hrow => ?_⟩
      simpa using hrow

theorem Bindings.bind_of_mem {bindings : Bindings} {url value bound : Chars}
    (h : (url, bound) ∈ bindings.rows) : bindings.bind url value = some (bindings, bound) := by
  unfold Bindings.bind
  split
  next row hfound =>
    have hurl : row.1 = url := by simpa using List.find?_some hfound
    have hsame := inj_on_of_nodup_map bindings.urls_nodup (mem_of_find?_eq_some hfound) h hurl
    rw [hsame]
  next hnone => exact absurd (List.find?_eq_none.mp hnone _ h) (by simp)

variable {store : Store}

theorem Store.Names.unique {ns ns' : PluginNamespace} (h : store.Names url ns)
    (h' : store.Names url ns') : ns = ns' := by
  unfold Store.Names at h h'
  split at h
  next hdefault =>
    rw [if_pos hdefault] at h'
    rw [h, h']
  rename_i hdefault
  rw [if_neg hdefault] at h'
  have hsame := inj_on_of_nodup_map store.bindings.urls_nodup h h' rfl
  cases ns
  cases ns'
  exact congrArg PluginNamespace.mk (Prod.mk.inj hsame).2

variable [Sha256]

/-- Resolving a namespace binds it, and nothing else. -/
theorem Store.namespaceFor_binds (hderived : store.Derived) (url : Chars) :
    store.Binds (store.namespaceFor url).2 ∧ (store.namespaceFor url).2.Derived := by
  unfold Store.namespaceFor
  dsimp only
  split
  · exact ⟨.refl store, hderived⟩
  split
  next => exact ⟨.refl store, hderived⟩
  rename_i bindings bound hbind
  obtain ⟨hsub, -, hrows⟩ := Bindings.bind_eq_some hbind
  have hafter : Store.Derived { store with bindings := bindings } := by
    intro row hrow
    rcases hrows row hrow with hold | rfl
    · exact hderived row hold
    · rfl
  split
  · exact ⟨⟨rfl, hsub⟩, hafter⟩
  · exact ⟨⟨rfl, hsub⟩, hafter⟩

theorem Store.namespaceFor_ok (h : (store.namespaceFor url).1 = .ok ns) :
    (store.namespaceFor url).2.Names (canonicalRepositoryUrl url) ns := by
  unfold Store.namespaceFor at h ⊢
  dsimp only at h ⊢
  split at h
  next hdefault =>
    cases h
    rw [if_pos hdefault, Store.Names, if_pos hdefault]
  rename_i hdefault
  rw [if_neg hdefault]
  split at h
  next => cases h
  rename_i bindings bound hbind
  have hmem := (Bindings.bind_eq_some hbind).2.1
  split at h
  next => cases h
  rename_i found hparse
  cases h
  unfold parse at hparse
  split at hparse
  next => cases hparse
  next =>
    cases hparse
    rw [Store.Names, if_neg hdefault]
    exact hmem

theorem Store.Names.namespaceFor_eq (hderived : store.Derived)
    (h : store.Names (canonicalRepositoryUrl url) ns) :
    store.namespaceFor url = (.ok ns, store) := by
  unfold Store.Names at h
  unfold Store.namespaceFor
  dsimp only
  split at h
  next hdefault => rw [if_pos hdefault, h]
  rename_i hdefault
  have hvalue : ns.value =
      (deriveFromCanonicalUrl (canonicalRepositoryUrl url)).value :=
    hderived _ h
  have hns : ns = deriveFromCanonicalUrl (canonicalRepositoryUrl url) := by
    cases ns
    exact congrArg PluginNamespace.mk hvalue
  rw [if_neg hdefault, Bindings.bind_of_mem h]
  dsimp only
  rw [hns, parse_derive]

/-- A namespace is legal, `official` for the default marketplace alone, and never `local`. -/
theorem Store.Names.legal (hderived : store.Derived) (h : store.Names url ns) :
    PluginNamespace.parse ns.value = .ok ns ∧
      (ns = .official → url = canonicalRepositoryUrl defaultMarketplaceUrl) ∧ ns ≠ .local := by
  unfold Store.Names at h
  split at h
  next hdefault =>
    subst h
    exact ⟨by decide, fun _ => hdefault, by decide⟩
  have hns : ns = deriveFromCanonicalUrl url := by
    cases ns
    exact congrArg PluginNamespace.mk (hderived _ h)
  obtain ⟨hofficial, hlocal⟩ := derive_ne_reserved url
  rw [hns]
  exact ⟨parse_derive url, fun h => absurd h hofficial, hlocal⟩

theorem Store.Names.injective (hderived : store.Derived) {url url' : Chars}
    (h : store.Names url ns) (h' : store.Names url' ns) : url = url' := by
  by_cases hofficial : ns = .official
  · rw [(h.legal hderived).2.1 hofficial, (h'.legal hderived).2.1 hofficial]
  unfold Store.Names at h h'
  split at h
  next => exact absurd h hofficial
  split at h'
  next => exact absurd h' hofficial
  next =>
    have hsame := inj_on_of_nodup_map store.bindings.namespaces_nodup h h' rfl
    exact (Prod.mk.inj hsame).1

end Bindings

/-! ### What every call preserves

Further requirements on the configured URLs, one for each and one for each two of them, are kept by
the calls that meet them. -/

/-- The text of a row is a URL of a repository, and its branch is the name of one. -/
structure SourceRow.Reads (row : MarketplaceSource) (parsed : Url) : Prop where
  parses : parseRepositoryUrl row.url = .ok parsed
  branch : validateBranchName row.branch = .ok ()

/-- The requirements hold of the default source, and do not depend on the order. -/
structure Requirements (Good : Chars → Prop) (Rel : Chars → Chars → Prop) : Prop where
  default : Good defaultMarketplaceUrl
  symm : ∀ url url', Rel url url' → Rel url' url

/-- The URL that a call configures meets the requirements. -/
def Meets (Good : Chars → Prop) (Rel : Chars → Chars → Prop) (store : Store) : Call → Prop
  | .opened => True
  | .add source => Good source.url ∧ ∀ row ∈ store.sources,
      Rel (canonicalRepositoryUrl row.url) (canonicalRepositoryUrl source.url)
  | .update request => Good request.newUrl ∧ ∀ row ∈ store.sources, row.url ≠ request.url →
      Rel (canonicalRepositoryUrl row.url) (canonicalRepositoryUrl request.newUrl)
  | .delete _ => True

/-- Two rows are told apart, by everything a source is known by. -/
structure SourceRow.Distinguished (Rel : Chars → Chars → Prop) (row row' : SourceRow) : Prop where
  canonical : canonicalRepositoryUrl row.url ≠ canonicalRepositoryUrl row'.url
  related : Rel (canonicalRepositoryUrl row.url) (canonicalRepositoryUrl row'.url)

structure Store.Sound (Good : Chars → Prop) (Rel : Chars → Chars → Prop) (store : Store) : Prop where
  derived : store.Derived
  reads : ∀ row ∈ store.sources, ∃ parsed, SourceRow.Reads row.toMarketplaceSource parsed
  named : ∀ row ∈ store.sources, ∃ ns, store.Names (canonicalRepositoryUrl row.url) ns
  good : ∀ row ∈ store.sources, Good row.url
  distinguished : store.sources.Pairwise (SourceRow.Distinguished Rel)

section Steps

variable {Good : Chars → Prop} {Rel : Chars → Chars → Prop} {store after : Store}
  {sourcesRoot : Path}

omit [Sha256]

omit [UrlStandard] in
theorem SourceRow.Distinguished.symm [UrlStandard] (hreq : Requirements Good Rel)
    {row row' : SourceRow} (h : row.Distinguished Rel row') : row'.Distinguished Rel row :=
  ⟨h.canonical.symm, hreq.symm _ _ h.related⟩

omit [UrlStandard] in
/-- Editing one of the rows keeps the rows apart if the new row is apart from the others. -/
theorem distinguished_edited {sources : List SourceRow} {request : UpdateRequest}
    (hsymm : ∀ url url', Rel url url' → Rel url' url)
    (h : sources.Pairwise (SourceRow.Distinguished Rel))
    (hnew : ∀ row ∈ sources, row.url ≠ request.url → ∀ old : SourceRow, old.url = request.url →
      row.Distinguished Rel (Store.edited request old)) :
    (sources.map (Store.edited request)).Pairwise (SourceRow.Distinguished Rel) := by
  have hkept : ∀ row : SourceRow, row.url ≠ request.url → Store.edited request row = row :=
    fun row hne => if_neg hne
  refine pairwise_map.mpr (h.imp_of_mem ?_)
  intro row row' hrow hrow' hdistinguished
  by_cases heq : row.url = request.url
  · have hne : row'.url ≠ request.url := fun heq' =>
      hdistinguished.canonical (by rw [heq, heq'])
    rw [hkept row' hne]
    have hflip := hnew row' hrow' hne row heq
    exact ⟨hflip.canonical.symm, hsymm _ _ hflip.related⟩
  · rw [hkept row heq]
    by_cases heq' : row'.url = request.url
    · exact hnew row hrow heq row' heq'
    · rwa [hkept row' heq']

theorem isHttps_of_parseRepositoryUrl {parsed : Url}
    (hparse : parseRepositoryUrl url = .ok parsed) : IsHttps parsed.serialization := by
  unfold parseRepositoryUrl parseHttpsUrl at hparse
  dsimp only at hparse
  split at hparse
  next => cases hparse
  split at hparse
  next => cases hparse
  rename_i found hfound
  split at hparse
  next => cases hparse
  rename_i hscheme
  repeat' split at hparse
  all_goals first
    | cases hparse; done
    | skip
  cases hparse
  exact UrlStandard.https _ _ hfound (by simpa using hscheme)

theorem parseRepositoryUrl_default : parseRepositoryUrl defaultMarketplaceUrl =
    .ok ⟨"https".toList, [], none, none, none, defaultMarketplaceUrl⟩ := by
  have hstrip : stripMarkdownLink defaultMarketplaceUrl = defaultMarketplaceUrl := by decide
  unfold parseRepositoryUrl parseHttpsUrl
  rw [hstrip]
  dsimp only
  rw [if_neg (by decide), UrlStandard.default]
  rfl

variable {source : MarketplaceSource}

/-- A source that is accepted reads its repository. -/
theorem reads_of_checkedSource {checked : RegistrySource}
    (h : checkedSource source ns sourcesRoot = .ok checked) :
    ∃ parsed, SourceRow.Reads source parsed := by
  unfold checkedSource RegistrySource.tryFromGit at h
  split at h
  next => cases h
  next parsed hparsed =>
    split at h
    next => cases h
    next hbranch => exact ⟨parsed, hparsed, hbranch⟩

variable [Sha256]

omit [UrlStandard] in
theorem Store.insert_bindings (store : Store) (source : MarketplaceSource) (position : Nat) :
    (store.insert source position).2.bindings = (store.namespaceFor source.url).2.bindings := by
  unfold Store.insert
  rcases store.namespaceFor source.url with ⟨_ | ns, bound⟩
  · rfl
  · dsimp only
    split <;> rfl

/-- The namespaces that a call leaves are those that were bound, or those that resolving a URL
leaves. -/
theorem Store.apply_bindings (sourcesRoot : Path) (store : Store) (call : Call) :
    (store.apply sourcesRoot call).2.bindings = store.bindings ∨
      ∃ url, (store.apply sourcesRoot call).2.bindings = (store.namespaceFor url).2.bindings := by
  cases call with
  | opened =>
    unfold Store.apply Store.opened
    dsimp only
    split
    · exact .inr ⟨_, store.insert_bindings _ _⟩
    · exact .inl rfl
  | add source =>
    unfold Store.apply Store.add
    dsimp only
    split
    · exact .inl rfl
    · split
      · exact .inl rfl
      · exact .inr ⟨_, store.insert_bindings _ _⟩
  | update request =>
    unfold Store.apply Store.update
    dsimp only
    split
    · exact .inl rfl
    split
    · exact .inl rfl
    refine .inr ⟨request.newUrl, ?_⟩
    rcases store.namespaceFor request.newUrl with ⟨_ | ns, bound⟩
    · rfl
    · dsimp only
      split
      · rfl
      · split <;> rfl
  | delete url =>
    unfold Store.apply Store.delete
    dsimp only
    split
    · exact .inl rfl
    · exact .inl rfl

theorem Store.bound_apply (h : store.Derived) (sourcesRoot : Path) (call : Call) :
    store.bindings.rows ⊆ (store.apply sourcesRoot call).2.bindings.rows := by
  rcases store.apply_bindings sourcesRoot call with hsame | ⟨url, hurl⟩
  · rw [hsame]
    exact fun _ hmem => hmem
  · rw [hurl]
    exact (Store.namespaceFor_binds h url).1.bound

theorem Store.Sound.empty : Store.empty.Sound Good Rel := ⟨nofun, nofun, nofun, nofun, .nil⟩

variable (h : store.Sound Good Rel)

include h

theorem Store.Sound.of_binds (hbinds : store.Binds after)
    (hderived : after.Derived) : after.Sound Good Rel := by
  refine ⟨hderived, hbinds.sources ▸ h.reads, ?_, hbinds.sources ▸ h.good,
    hbinds.sources ▸ h.distinguished⟩
  rw [hbinds.sources]
  intro row hrow
  obtain ⟨ns, hns⟩ := h.named row hrow
  exact ⟨ns, hns.of_binds hbinds.bound⟩

theorem Store.Sound.namespaceFor (url : Chars) : (store.namespaceFor url).2.Sound Good Rel :=
  let ⟨hbinds, hderived⟩ := Store.namespaceFor_binds h.derived url
  h.of_binds hbinds hderived

/-- Another set of rows, of which the new ones read their repositories, are named and are good. -/
theorem Store.Sound.with_sources {sources : List SourceRow}
    (hrows : ∀ row ∈ sources, row ∈ store.sources ∨
      (∃ parsed, SourceRow.Reads row.toMarketplaceSource parsed) ∧
        (∃ ns, store.Names (canonicalRepositoryUrl row.url) ns) ∧ Good row.url)
    (hdistinguished : sources.Pairwise (SourceRow.Distinguished Rel)) :
    Store.Sound Good Rel { store with sources := sources } := by
  refine ⟨h.derived, fun row hrow => ?_, fun row hrow => ?_, fun row hrow => ?_, hdistinguished⟩
  · exact (hrows row hrow).elim (h.reads row) fun hnew => hnew.1
  · exact (hrows row hrow).elim (h.named row) fun hnew => hnew.2.1
  · exact (hrows row hrow).elim (h.good row) fun hnew => hnew.2.2

theorem Store.Sound.insert {position : Nat} (hreads : ∃ parsed, SourceRow.Reads source parsed)
    (hgood : (store.insert source position).1 = .ok () → Good source.url)
    (hnew : (store.insert source position).1 = .ok () → ∀ row ∈ store.sources,
      row.Distinguished Rel { source with position := position }) :
    (store.insert source position).2.Sound Good Rel := by
  have hbound := h.namespaceFor source.url
  obtain ⟨hbinds, -⟩ := Store.namespaceFor_binds h.derived source.url
  have hnamed : ∀ ns, (store.namespaceFor source.url).1 = .ok ns → _ :=
    fun ns => Store.namespaceFor_ok
  unfold Store.insert at hgood hnew ⊢
  rcases hns : store.namespaceFor source.url with ⟨_ | ns, bound⟩
  · simpa [hns] using hbound
  rw [hns] at hbound hbinds hnamed
  simp only [hns] at hgood hnew ⊢
  split at hgood
  next hkey =>
    rw [if_pos hkey]
    exact hbound
  rename_i hkey
  rw [if_neg hkey] at hnew ⊢
  refine hbound.with_sources (fun row hrow => ?_) ?_
  · rcases mem_append.mp hrow with hold | hsame
    · exact .inl hold
    · rw [mem_singleton.mp hsame]
      exact .inr ⟨hreads, ⟨ns, hnamed ns rfl⟩, hgood rfl⟩
  · rw [pairwise_append]
    refine ⟨hbound.distinguished, pairwise_singleton _ _, fun row hrow other hother => ?_⟩
    rw [mem_singleton.mp hother]
    exact hnew rfl row (hbinds.sources ▸ hrow)

theorem Store.Sound.opened (hreq : Requirements Good Rel) : store.opened.2.Sound Good Rel := by
  unfold Store.opened
  split
  next hnil =>
    refine h.insert ⟨_, parseRepositoryUrl_default, by decide⟩ (fun _ => hreq.default)
      fun _ row hrow => ?_
    rw [hnil] at hrow
    cases hrow
  next => exact h

theorem Store.Sound.add
    (hmeets : (store.add sourcesRoot source).1 = .ok () → Meets Good Rel store (.add source)) :
    (store.add sourcesRoot source).2.Sound Good Rel := by
  unfold Store.add at hmeets ⊢
  split
  next => exact h
  rename_i hfresh
  rw [if_neg hfresh] at hmeets
  split
  next => exact h
  rename_i hchecked
  rw [hchecked] at hmeets
  refine h.insert (reads_of_checkedSource hchecked) (fun hok => ?_)
    fun hok row hrow => ⟨fun heq => ?_, ?_⟩
  · exact (hmeets hok).1
  · exact hfresh (any_eq_true.mpr ⟨row, hrow, decide_eq_true heq⟩)
  · exact (hmeets hok).2 row hrow

theorem Store.Sound.delete (url : Chars) : (store.delete url).2.Sound Good Rel := by
  unfold Store.delete
  split
  next =>
    exact h.with_sources (fun row hrow => .inl (mem_filter.mp hrow).1)
      (h.distinguished.sublist filter_sublist)
  next => exact h

theorem Store.Sound.update {request : UpdateRequest} (hreq : Requirements Good Rel)
    (hmeets : (store.update sourcesRoot request).1 = .ok () →
      Meets Good Rel store (.update request)) :
    (store.update sourcesRoot request).2.Sound Good Rel := by
  have hbound := h.namespaceFor request.newUrl
  obtain ⟨hbinds, -⟩ := Store.namespaceFor_binds h.derived request.newUrl
  have hnamed : ∀ ns, (store.namespaceFor request.newUrl).1 = .ok ns → _ :=
    fun ns => Store.namespaceFor_ok
  unfold Store.update at hmeets ⊢
  split
  next => exact h
  rename_i hfound
  rw [if_neg hfound] at hmeets
  split
  next => exact h
  rename_i hfresh
  rw [if_neg hfresh] at hmeets
  rcases hns : store.namespaceFor request.newUrl with ⟨_ | ns, bound⟩
  · simpa [hns] using hbound
  rw [hns] at hbound hbinds hnamed
  simp only [hns] at hmeets ⊢
  split
  next => exact hbound
  rename_i hchecked
  rw [hchecked] at hmeets
  dsimp only at hmeets
  split
  next => exact hbound
  rename_i hkey
  rw [if_neg hkey] at hmeets
  obtain ⟨hgood, hrelated⟩ := hmeets rfl
  have hedited : ∀ old : SourceRow, old.url = request.url →
      (Store.edited request old).toMarketplaceSource =
        ⟨request.newUrl, request.branch, request.useProxy, request.enabled⟩ := by
    intro old heq
    rw [Store.edited, if_pos heq]
  refine hbound.with_sources (fun row hrow => ?_)
    (distinguished_edited hreq.symm hbound.distinguished ?_)
  · obtain ⟨old, hold, rfl⟩ := mem_map.mp hrow
    by_cases heq : old.url = request.url
    · right
      rw [hedited old heq]
      exact ⟨reads_of_checkedSource hchecked, ⟨ns, hnamed ns rfl⟩, hgood⟩
    · left
      rwa [Store.edited, if_neg heq]
  · intro row hrow hne old heq
    have hmem : row ∈ store.sources := hbinds.sources ▸ hrow
    have hurl : (Store.edited request old).url = request.newUrl :=
      congrArg MarketplaceSource.url (hedited old heq)
    refine ⟨fun hsame => ?_, ?_⟩
    · rw [hurl] at hsame
      exact hfresh (any_eq_true.mpr ⟨row, hmem, decide_eq_true ⟨hne, hsame⟩⟩)
    · rw [hurl]
      exact hrelated row hmem hne

theorem Store.Sound.apply (hreq : Requirements Good Rel) {call : Call}
    (hmeets : (store.apply sourcesRoot call).1 = .ok () → Meets Good Rel store call) :
    (store.apply sourcesRoot call).2.Sound Good Rel := by
  cases call with
  | opened => exact h.opened hreq
  | add source => exact h.add hmeets
  | update request => exact h.update hreq hmeets
  | delete url => exact h.delete url

/-- What every run of calls that meet the requirements preserves. -/
theorem Store.Sound.run {R : Store → Call → Store → Prop} {journal : List (Call × Store)}
    (hreq : Requirements Good Rel)
    (hR : ∀ store call after, R store call after → after = (store.apply sourcesRoot call).2 ∧
      ((store.apply sourcesRoot call).1 = .ok () → Meets Good Rel store call))
    (hrun : Journal.Path R store journal after) :
    after.Sound Good Rel ∧ store.bindings.rows ⊆ after.bindings.rows := by
  induction hrun with
  | nil => exact ⟨h, fun _ hmem => hmem⟩
  | cons hstep _ ih =>
    obtain ⟨rfl, hmeets⟩ := hR _ _ _ hstep
    obtain ⟨hsound, hbound⟩ := ih (h.apply hreq hmeets)
    exact ⟨hsound, fun _ hmem => hbound (Store.bound_apply h.derived sourcesRoot _ hmem)⟩

theorem Store.Sound.registrySource_eq {row : SourceRow}
    (hrow : row ∈ store.sources) (sourcesRoot : Path) :
    ∃ parsed ns, SourceRow.Reads row.toMarketplaceSource parsed ∧
      store.Names (canonicalRepositoryUrl row.url) ns ∧
      store.registrySource sourcesRoot row.toMarketplaceSource =
        (.ok (.fromGit parsed.serialization ns row.branch sourcesRoot), store) := by
  obtain ⟨parsed, hreads⟩ := h.reads row hrow
  obtain ⟨ns, hns⟩ := h.named row hrow
  refine ⟨parsed, ns, hreads, hns, ?_⟩
  unfold Store.registrySource
  rw [hns.namespaceFor_eq h.derived]
  unfold checkedSource RegistrySource.tryFromGit
  rw [hreads.parses]
  dsimp only
  rw [hreads.branch]

end Steps

/-! ### Careful calls -/

/-- Neither of two URLs continues the other one with `registry`. -/
def Apart (url url' : Chars) : Prop :=
  ¬checkoutSegments url ++ ["registry".toList] <+: checkoutSegments url' ∧
    ¬checkoutSegments url' ++ ["registry".toList] <+: checkoutSegments url

/-- Parsing leaves the canonical text of a URL as it is, and the URL has no empty or relative path
segment. -/
structure Clean (url : Chars) : Prop where
  plain : ∀ parsed, parseRepositoryUrl url = .ok parsed →
    canonicalRepositoryUrl parsed.serialization = canonicalRepositoryUrl url
  tidy : Tidy (canonicalRepositoryUrl url)

/-- The URL that a call configures is clean and apart from those of the other sources. -/
def Careful (store : Store) : Call → Prop
  | .opened => True
  | .add source => Clean source.url ∧ ∀ row ∈ store.sources,
      Apart (canonicalRepositoryUrl row.url) (canonicalRepositoryUrl source.url)
  | .update request => Clean request.newUrl ∧ ∀ row ∈ store.sources, row.url ≠ request.url →
      Apart (canonicalRepositoryUrl row.url) (canonicalRepositoryUrl request.newUrl)
  | .delete _ => True

/-- A call that is refused, or is accepted and careful. -/
structure Step (sourcesRoot : Path) (store : Store) (call : Call) (after : Store) : Prop where
  result : after = (store.apply sourcesRoot call).2
  careful : (store.apply sourcesRoot call).1 = .ok () → Careful store call

omit [UrlStandard] [Sha256] in
theorem Apart.symm {url url' : Chars} (h : Apart url url') : Apart url' url := ⟨h.2, h.1⟩

theorem Step.meets {sourcesRoot : Path} {store after : Store} {call : Call}
    (h : Step sourcesRoot store call after) : after = (store.apply sourcesRoot call).2 ∧
      ((store.apply sourcesRoot call).1 = .ok () → Meets Clean Apart store call) := by
  refine ⟨h.result, fun hok => ?_⟩
  have hcareful := h.careful hok
  cases call <;> exact hcareful

omit [Sha256] in
theorem requirements_clean_apart : Requirements Clean Apart := by
  refine ⟨⟨fun parsed h => ?_, by decide⟩, fun _ _ => .symm⟩
  rw [parseRepositoryUrl_default] at h
  cases h
  rfl

/-! ### One identity for each source -/

/-- Two registry sources that have nothing in common. -/
structure RegistrySource.Separate (source source' : RegistrySource) : Prop where
  canonicalUrl : source.canonicalUrl ≠ source'.canonicalUrl
  «namespace» : source.namespace ≠ source'.namespace
  checkout : resolve source.checkoutDir ≠ resolve source'.checkoutDir
  outside : ¬Inside source'.checkoutDir source.registryDir
  outside' : ¬Inside source.checkoutDir source'.registryDir

/-- Every configured source has a registry source, whose namespace is bound to its canonical URL; no
two of them have anything in common. -/
structure Store.Identified (sourcesRoot : Path) (store : Store) : Prop where
  resolved : ∀ row ∈ store.sources,
    ∃ source, store.registrySource sourcesRoot row.toMarketplaceSource = (.ok source, store)
  bound : ∀ row ∈ store.sources, ∀ source,
    store.registrySource sourcesRoot row.toMarketplaceSource = (.ok source, store) →
      store.Names source.canonicalUrl source.namespace ∧
      PluginNamespace.parse source.namespace.value = .ok source.namespace ∧
      (source.namespace = .official →
        source.canonicalUrl = canonicalRepositoryUrl defaultMarketplaceUrl) ∧
      source.namespace ≠ .local
  separate : ∀ row ∈ store.sources, ∀ row' ∈ store.sources, row ≠ row' → ∀ source source',
    store.registrySource sourcesRoot row.toMarketplaceSource = (.ok source, store) →
    store.registrySource sourcesRoot row'.toMarketplaceSource = (.ok source', store) →
      source.Separate source'

section Identity

variable {store after : Store} {sourcesRoot : Path}

theorem Store.Sound.source (h : store.Sound Clean Apart) {row : SourceRow} (hrow : row ∈ store.sources)
    {source : RegistrySource}
    (hsource : store.registrySource sourcesRoot row.toMarketplaceSource = (.ok source, store)) :
    source.canonicalUrl = canonicalRepositoryUrl row.url ∧
      store.Names source.canonicalUrl source.namespace ∧
      source.checkoutDir = sourcesRoot ++ checkoutSegments source.canonicalUrl ∧
      IsHttps source.canonicalUrl ∧ Tidy source.canonicalUrl := by
  obtain ⟨parsed, ns, hreads, hns, heq⟩ := h.registrySource_eq hrow sourcesRoot
  rw [heq] at hsource
  cases hsource
  have hclean := h.good row hrow
  have hcanonical := hclean.plain parsed hreads.parses
  have hhttps := (isHttps_of_parseRepositoryUrl hreads.parses).canonicalRepositoryUrl
  simp only [RegistrySource.fromGit, hcanonical, true_and] at hhttps ⊢
  exact ⟨hns, hhttps, hclean.tidy⟩

theorem Store.Sound.identified (h : store.Sound Clean Apart) (sourcesRoot : Path) :
    store.Identified sourcesRoot := by
  refine ⟨fun row hrow => ?_, fun row hrow source hsource => ?_, ?_⟩
  · obtain ⟨parsed, ns, -, -, heq⟩ := h.registrySource_eq hrow sourcesRoot
    exact ⟨_, heq⟩
  · obtain ⟨-, hnames, -⟩ := h.source hrow hsource
    exact ⟨hnames, hnames.legal h.derived⟩
  · intro row hrow row' hrow' hne source source' hsource hsource'
    have hsymm : Std.Symm (SourceRow.Distinguished Apart) :=
      ⟨fun _ _ h => h.symm requirements_clean_apart⟩
    have hdistinguished := h.distinguished.forall hrow hrow' hne
    obtain ⟨hurl, hnames, hdir, hhttps, htidy⟩ := h.source hrow hsource
    obtain ⟨hurl', hnames', hdir', hhttps', htidy'⟩ := h.source hrow' hsource'
    have hcanonical : source.canonicalUrl ≠ source'.canonicalUrl := by
      rw [hurl, hurl']
      exact hdistinguished.canonical
    have happart := hdistinguished.related
    rw [← hurl, ← hurl'] at happart
    have hregistry : ∀ {s : RegistrySource}, s.checkoutDir = sourcesRoot ++ checkoutSegments s.canonicalUrl →
        Tidy s.canonicalUrl → resolve s.registryDir =
          resolve sourcesRoot ++ (checkoutSegments s.canonicalUrl ++ ["registry".toList]) := by
      intro s hs htidy
      rw [RegistrySource.registryDir, resolve_append (by decide), hs, htidy.resolve_checkout,
        append_assoc]
    refine ⟨hcanonical, fun heq => ?_, fun heq => ?_, fun hinside => ?_, fun hinside => ?_⟩
    · rw [heq] at hnames
      exact hcanonical (hnames.injective h.derived hnames')
    · rw [hdir, hdir', htidy.resolve_checkout, htidy'.resolve_checkout] at heq
      exact hcanonical
        (checkoutSegments_injective hhttps hhttps' htidy htidy' (append_cancel_left heq))
    · rw [Inside, hregistry hdir htidy, hdir', htidy'.resolve_checkout,
        prefix_append_right_inj] at hinside
      exact happart.1 hinside
    · rw [Inside, hregistry hdir' htidy', hdir, htidy.resolve_checkout,
        prefix_append_right_inj] at hinside
      exact happart.2 hinside

/-- In every run of calls that are refused or careful, the configured sources have identities of
their own, and a canonical URL that has a namespace keeps it. Canonicalising twice is canonicalising
once exactly where the parts of the text are settled, and two spellings of a repository have one
canonical text unless they differ in a `.git` suffix after a path that ends in `.git`. -/
theorem one_identity_per_source (sourcesRoot : Path) {journal later : List (Call × Store)}
    (hrun : Journal.Path (Step sourcesRoot) .empty journal store)
    (hlater : Journal.Path (Step sourcesRoot) store later after) :
    store.Identified sourcesRoot ∧ (∀ row ∈ store.sources, ∀ row' ∈ after.sources, ∀ source source',
      store.registrySource sourcesRoot row.toMarketplaceSource = (.ok source, store) →
      after.registrySource sourcesRoot row'.toMarketplaceSource = (.ok source', after) →
      source.canonicalUrl = source'.canonicalUrl → source.namespace = source'.namespace) ∧
    (∀ url, canonicalRepositoryUrl (canonicalRepositoryUrl url) = canonicalRepositoryUrl url ↔
      (splitRemote (lowercase (trim url))).Settled) ∧
    ∀ x y : Spelling, x.Valid → y.Valid → x.Same y →
      (canonicalRepositoryUrl x.text = canonicalRepositoryUrl y.text ↔
        x.git = y.git ∨ ¬".git".toList <:+ stripTrailingSlashes (lowercase x.path)) := by
  have hsound := (Store.Sound.empty.run requirements_clean_apart (fun _ _ _ => Step.meets) hrun).1
  obtain ⟨hafter, hbound⟩ :=
    hsound.run requirements_clean_apart (fun _ _ _ => Step.meets) hlater
  refine ⟨hsound.identified sourcesRoot, ?_, canonicalRepositoryUrl_idem_iff,
    fun x y hx hy hsame => Spelling.canonicalRepositoryUrl_eq_iff hx hy hsame⟩
  intro row hrow row' hrow' source source' hsource hsource' heq
  obtain ⟨-, hnames, -⟩ := hsound.source hrow hsource
  obtain ⟨-, hnames', -⟩ := hafter.source hrow' hsource'
  rw [← heq] at hnames'
  exact (hnames.of_binds hbound).unique hnames'

end Identity

end Standards

/-! ### Configuring sources -/

/-- Takes every text with the scheme `https` as it is. -/
@[reducible] def UrlStandard.literal : UrlStandard where
  parse text :=
    if "https://".toList <+: text then some ⟨"https".toList, [], none, none, none, text⟩ else none
  https := by
    intro text url h _
    split at h
    next hpre =>
      cases h
      obtain ⟨rest, rfl⟩ := hpre
      exact ⟨rest, rfl⟩
    next => cases h
  default := by decide

/-- The digest of every text is zero. -/
@[reducible] def Sha256.zero : Sha256 where
  hex _ := List.replicate 64 '0'
  length_hex _ := by decide
  isDigit_hex _ := by
    intro c hc
    rw [eq_of_mem_replicate hc]
    decide

def enabledSource (url : String) : MarketplaceSource :=
  { url := url.toList, branch := "main".toList, useProxy := false, enabled := true }

def Store.after [UrlStandard] [Sha256] (calls : List Call) : Store :=
  calls.foldl (fun store call => (store.apply [] call).2) .empty

def Store.registrySources [UrlStandard] [Sha256] (store : Store) :
    List (Except StoreError RegistrySource) :=
  store.sources.map fun row => (store.registrySource [] row.toMarketplaceSource).1

/-- A Markdown link to the default marketplace is accepted as another source. The two sources have
the canonical URL and the checkout in common, under two namespaces, one of which is not bound to that
URL. A repository below the `registry` directory of another one is accepted, too. And a path that
ends in `.git` twice canonicalises to one that canonicalises further. -/
theorem markdown_link_is_another_source :
    let _ := UrlStandard.literal
    let _ := Sha256.zero
    let link := enabledSource "[ora](https://github.com/ora-space/marketplace)"
    let nested := enabledSource "https://github.com/ora-space/marketplace/registry/tools"
    let twice := "https://example.com/repo.git.git".toList
    ((Store.after [.opened]).add [] link).1 = .ok () ∧
    ((Store.after [.opened, .add link]).registrySources.map fun source =>
        source.toOption.map fun source => (source.canonicalUrl, source.checkoutDir)) =
      [some (defaultMarketplaceUrl, ["github.com".toList, "ora-space".toList, "marketplace".toList]),
        some (defaultMarketplaceUrl,
          ["github.com".toList, "ora-space".toList, "marketplace".toList])] ∧
    ((Store.after [.opened, .add link]).registrySources.map fun source =>
        source.toOption.map fun source => source.namespace.value) =
      [some "official".toList, some "marketplace.00000000".toList] ∧
    ((Store.after [.opened]).add [] nested).1 = .ok () ∧
    ((Store.after [.opened, .add nested]).registrySources.map fun source =>
        source.toOption.map fun source => source.checkoutDir) =
      [some ["github.com".toList, "ora-space".toList, "marketplace".toList],
        some ["github.com".toList, "ora-space".toList, "marketplace".toList, "registry".toList,
          "tools".toList]] ∧
    canonicalRepositoryUrl twice = "https://example.com/repo.git".toList ∧
    canonicalRepositoryUrl (canonicalRepositoryUrl twice) = "https://example.com/repo".toList := by
  decide +kernel

/-- A third party's source, spelled with capitals and a `.git` suffix, beside the default one. -/
def acmeCall : Call := .add (enabledSource "https://github.com/Acme/Plugins.git")

theorem parseRepositoryUrl_acme :
    @parseRepositoryUrl .literal "https://github.com/Acme/Plugins.git".toList =
      .ok ⟨"https".toList, [], none, none, none, "https://github.com/Acme/Plugins.git".toList⟩ := by
  decide +kernel

/-- The identities where a source is added to the default one. -/
theorem one_identity_per_source_acme :
    let _ := UrlStandard.literal
    let _ := Sha256.zero
    ∃ journal, Journal.Path (Step []) .empty journal (.after [.opened, acmeCall]) ∧
      (Store.after [.opened, acmeCall]).sources.length = 2 ∧
      (Store.after [.opened, acmeCall]).Identified [] := by
  intro _ _
  have hclean : Clean "https://github.com/Acme/Plugins.git".toList := by
    refine ⟨fun parsed h => ?_, by decide⟩
    cases parseRepositoryUrl_acme.symm.trans h
    rfl
  have hapart : ∀ row ∈ (Store.after [.opened]).sources,
      Apart (canonicalRepositoryUrl row.url)
        (canonicalRepositoryUrl "https://github.com/Acme/Plugins.git".toList) := by
    unfold Apart
    decide +kernel
  have hrun : Journal.Path (Step []) .empty
      [(.opened, Store.after [.opened]), (acmeCall, Store.after [.opened, acmeCall])]
      (.after [.opened, acmeCall]) :=
    .cons ⟨rfl, fun _ => trivial⟩ (.cons ⟨rfl, fun _ => ⟨hclean, hapart⟩⟩ (.nil _))
  exact ⟨_, hrun, by decide +kernel, (one_identity_per_source [] hrun (.nil _)).1⟩

end OraDesktop.Marketplace

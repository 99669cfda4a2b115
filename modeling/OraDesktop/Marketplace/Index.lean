import OraDesktop.Lib.FirstByKey
import OraDesktop.Marketplace.Store
import Mathlib.Data.Char
import Mathlib.Data.List.Lex
import Mathlib.Data.Prod.Lex

/-!
# The marketplace index

A rebuild refreshes the checkout of every enabled source and writes one index of what they publish.
A source that could not be refreshed is not read again; its entries in the previous index are carried
over and the failure is recorded.

Failures, entries and enabled sources are matched by URL. The URL of a failure is canonicalised once
more than that of the source, so a source is taken as failed when some failure's URL, canonicalised
again, is the one the source has.

## Main results

* `buildWithFailures_plugins` — an index has the first entry of each id
* `find?_buildEntries` — which comes from the source that has the namespace of the id
* `resolveManifestAll_eq` — and the id resolves to that source's first manifest of the name
-/

namespace OraDesktop.Marketplace

open List

/-! ### Manifests and entries -/

structure PluginId where
  «namespace» : Chars
  name : Chars
  deriving DecidableEq

/-- Ids are ordered by their namespaces first. -/
def PluginId.key (id : PluginId) : Chars ×ₗ Chars := toLex (id.namespace, id.name)

inductive PluginReleaseSource where
  | universal (artifact : Chars)
  | targets (artifacts : List (Chars × Chars))

structure PluginManifest where
  name : Chars
  title : Chars
  kind : Chars
  version : Chars
  description : Chars
  releaseSource : Option PluginReleaseSource
  pack : Option (List Chars)
  marketplaceVisible : Bool

structure RegistryEntry where
  id : PluginId
  identifier : Chars
  title : Chars
  kind : Chars
  «namespace» : Chars
  sourceUrl : Chars
  version : Chars
  description : Chars
  logo : Option Chars
  releaseTargets : Option (List Chars)
  packMembers : Option (List Chars)
  deriving DecidableEq

section

variable (manifest : PluginManifest) («namespace» : PluginNamespace)

def entryId : PluginId :=
  ⟨«namespace».value, manifest.name⟩

def RegistryEntry.fromManifest (sourceUrl : Chars) (logo : Option Chars) : RegistryEntry :=
  { id := entryId manifest «namespace», identifier := manifest.name, title := manifest.title,
    kind := manifest.kind, «namespace» := «namespace».value, sourceUrl := sourceUrl,
    version := manifest.version, description := manifest.description, logo := logo,
    releaseTargets := manifest.releaseSource.map fun
      | .universal _ => []
      | .targets artifacts => artifacts.map (·.1)
    packMembers := manifest.pack }

end

/-! ### Checkouts -/

/-- A file `orax.toml`, with what parsing it gives and the icon beside it. -/
structure ManifestFile where
  path : Path
  parsed : Except Chars PluginManifest
  logo : Option Chars

/-- The manifests on disk, in path order, which is the order in which the first of a name is
taken. -/
abbrev Disk := List ManifestFile

def oraxManifestPaths (disk : Disk) (root : Path) : List ManifestFile :=
  disk.filter fun file => decide (resolve root <+: file.path)

/-- The entry of a manifest; nothing for one that is hidden or cannot be parsed. -/
def scanFile (source : RegistrySource) (file : ManifestFile) : Option RegistryEntry :=
  match file.parsed with
  | .ok manifest =>
    if manifest.marketplaceVisible then
      some (.fromManifest manifest source.namespace source.canonicalUrl file.logo)
    else none
  | .error _ => none

structure SkippedManifest where
  path : Path
  reason : Chars

def skipFile (file : ManifestFile) : Option SkippedManifest :=
  match file.parsed with
  | .ok _ => none
  | .error reason => some ⟨file.path, reason⟩

def scanSource (disk : Disk) (source : RegistrySource) : List RegistryEntry :=
  (oraxManifestPaths disk source.registryDir).filterMap (scanFile source)

/-- `find_manifest_path` and the manifest at that path. -/
def resolveManifest (disk : Disk) (source : RegistrySource) (id : PluginId) :
    Option PluginManifest :=
  if source.namespace.value ≠ id.namespace then none
  else
    (oraxManifestPaths disk source.registryDir).findSome? fun file =>
      match file.parsed with
      | .ok manifest => if entryId manifest source.namespace = id then some manifest else none
      | .error _ => none

def resolveManifestAll (disk : Disk) (sources : List RegistrySource) (id : PluginId) :
    Option PluginManifest :=
  sources.findSome? fun source => resolveManifest disk source id

/-! ### Building the index -/

structure RegistrySourceFailure where
  url : Chars
  message : Chars
  deriving DecidableEq

def RegistrySourceFailure.new (url message : Chars) : RegistrySourceFailure :=
  ⟨canonicalRepositoryUrl url, message⟩

structure RegistryIndex where
  updatedAt : Int
  plugins : List RegistryEntry
  sourceFailures : List RegistrySourceFailure
  deriving DecidableEq

structure RegistryBuild where
  index : RegistryIndex
  skipped : List SkippedManifest

section

variable (sources : List RegistrySource) (failures : List RegistrySourceFailure)

/-- The failures of sources the build was given, matched by their URL canonicalised once more. -/
def knownFailures : List RegistrySourceFailure :=
  failures.filter fun failure => sources.any fun source => decide (source.canonicalUrl = failure.url)

def scannedSources : List RegistrySource :=
  sources.filter fun source => !failures.any fun failure => decide (failure.url = source.canonicalUrl)

end

def previousEntries (previous : Option RegistryIndex) : List RegistryEntry :=
  match previous with
  | none => []
  | some previous => previous.plugins

def carriedOverEntries (failures : List RegistrySourceFailure) (previous : Option RegistryIndex) :
    List RegistryEntry :=
  (previousEntries previous).filter fun entry =>
    failures.any fun failure => decide (failure.url = entry.sourceUrl)

section

variable (disk : Disk) (sources : List RegistrySource) (failures : List RegistrySourceFailure)
  (previous : Option RegistryIndex)

def buildWithFailures (updatedAt : Int) : RegistryBuild :=
  let failures := knownFailures sources failures
  let scanned := scannedSources sources failures
  let entries := scanned.flatMap (scanSource disk) ++ carriedOverEntries failures previous
  { index :=
      { updatedAt := updatedAt
        plugins := FirstByKey.sortDedup (fun entry : RegistryEntry => entry.id.key) entries
        sourceFailures := failures }
    skipped := scanned.flatMap fun source =>
      (oraxManifestPaths disk source.registryDir).filterMap skipFile }

/-- The time of the index moves only where some source was refreshed. -/
def composeRebuild (refreshedAt : Int) : RegistryBuild :=
  let everySourceFailed := decide (sources ≠ []) && sources.all fun source =>
    failures.any fun failure => decide (failure.url = source.canonicalUrl)
  let updatedAt :=
    if everySourceFailed then (previous.map (·.updatedAt)).getD 0 else refreshedAt
  buildWithFailures disk sources failures previous updatedAt

end

section Standards

variable [UrlStandard] [Sha256]

namespace Store

/-- The registry sources of rows, one after the other. -/
def resolveSources (sourcesRoot : Path) (store : Store) :
    List SourceRow → Except StoreError (List RegistrySource) × Store
  | [] => (.ok [], store)
  | row :: rows =>
    match store.registrySource sourcesRoot row.toMarketplaceSource with
    | (.error error, store) => (.error error, store)
    | (.ok source, store) =>
      match store.resolveSources sourcesRoot rows with
      | (.error error, store) => (.error error, store)
      | (.ok sources, store) => (.ok (source :: sources), store)

def enabledRows (store : Store) : List SourceRow := store.sources.filter (·.enabled)

def disabledRows (store : Store) : List SourceRow := store.sources.filter (!·.enabled)

/-- `rebuild_registry_index`, where `refresh` says what refreshing a source fails with. -/
def rebuildRegistryIndex (sourcesRoot : Path) (store : Store) (disk : Disk)
    (refresh : RegistrySource → Option Chars) (previous : Option RegistryIndex) (refreshedAt : Int) :
    Except StoreError RegistryBuild × Store :=
  match store.resolveSources sourcesRoot store.enabledRows with
  | (.error error, store) => (.error error, store)
  | (.ok sources, store) =>
    let failures := sources.filterMap fun source =>
      (refresh source).map (RegistrySourceFailure.new source.canonicalUrl)
    (.ok (composeRebuild disk sources failures previous refreshedAt), store)

/-- The canonical texts of the enabled sources, which is what entries are filtered by. -/
def enabledUrls (store : Store) : List Chars :=
  store.enabledRows.map fun row => canonicalRepositoryUrl row.url

/-- What `list_available_plugins` shows of an index. -/
def availablePlugins (store : Store) (index : RegistryIndex) : List RegistryEntry :=
  index.plugins.filter fun entry => decide (canonicalRepositoryUrl entry.sourceUrl ∈ store.enabledUrls)

end Store

end Standards

/-! ### Sources taken as failed -/

/-- Some source failed whose canonical URL, canonicalised again, is this source's. -/
def TakenAsFailed (sources : List RegistrySource) (refresh : RegistrySource → Option Chars)
    (source : RegistrySource) : Prop :=
  ∃ failed ∈ sources, (refresh failed).isSome ∧
    canonicalRepositoryUrl failed.canonicalUrl = source.canonicalUrl

def manifests (disk : Disk) (source : RegistrySource) : List PluginManifest :=
  (oraxManifestPaths disk source.registryDir).filterMap (·.parsed.toOption)

/-! ### The entries of a build -/

section Build

variable {disk : Disk} {sources : List RegistrySource} {refresh : RegistrySource → Option Chars}
  {previous : Option RegistryIndex}

/-- The failures that are recorded where refreshing fails so. -/
def failuresOf (refresh : RegistrySource → Option Chars) (sources : List RegistrySource) :
    List RegistrySourceFailure :=
  sources.filterMap fun source => (refresh source).map (.new source.canonicalUrl)

theorem mem_failuresOf {failure : RegistrySourceFailure} :
    failure ∈ failuresOf refresh sources ↔ ∃ source ∈ sources, ∃ message,
      refresh source = some message ∧ RegistrySourceFailure.new source.canonicalUrl message = failure := by
  simp [failuresOf, mem_filterMap]

variable {source : RegistrySource}

/-- The failure of a source is known under its URL when the source is taken as failed. -/
theorem exists_knownFailure_iff (hsource : source ∈ sources) :
    (∃ failure ∈ knownFailures sources (failuresOf refresh sources),
      failure.url = source.canonicalUrl) ↔ TakenAsFailed sources refresh source := by
  constructor
  · rintro ⟨failure, hfailure, hurl⟩
    obtain ⟨failed, hfailed, message, hmessage, rfl⟩ := mem_failuresOf.mp (mem_filter.mp hfailure).1
    exact ⟨failed, hfailed, by simp [hmessage], hurl⟩
  · rintro ⟨failed, hfailed, hsome, hurl⟩
    obtain ⟨message, hmessage⟩ := Option.isSome_iff_exists.mp hsome
    refine ⟨.new failed.canonicalUrl message, mem_filter.mpr ⟨?_, ?_⟩, hurl⟩
    · exact mem_failuresOf.mpr ⟨failed, hfailed, message, hmessage, rfl⟩
    · exact any_eq_true.mpr ⟨source, hsource, decide_eq_true hurl.symm⟩

/-- The sources that are read are those not taken as failed. -/
theorem mem_scannedSources :
    source ∈ scannedSources sources (knownFailures sources (failuresOf refresh sources)) ↔
      source ∈ sources ∧ ¬TakenAsFailed sources refresh source := by
  rw [scannedSources, mem_filter]
  refine and_congr_right fun hsource => ?_
  rw [← exists_knownFailure_iff hsource]
  simp

variable {entry : RegistryEntry}

/-- What is carried over are the entries of sources that are taken as failed. -/
theorem mem_carriedOverEntries :
    entry ∈ carriedOverEntries (knownFailures sources (failuresOf refresh sources)) previous ↔
      entry ∈ previousEntries previous ∧ ∃ source ∈ sources,
        entry.sourceUrl = source.canonicalUrl ∧ TakenAsFailed sources refresh source := by
  rw [carriedOverEntries, mem_filter]
  refine and_congr_right fun _ => ?_
  constructor
  · intro h
    obtain ⟨failure, hfailure, heq⟩ := any_eq_true.mp h
    have hurl := of_decide_eq_true heq
    obtain ⟨source, hsource, hknown⟩ := any_eq_true.mp (mem_filter.mp hfailure).2
    have hsame := (of_decide_eq_true hknown).symm
    exact ⟨source, hsource, hurl.symm.trans hsame,
      (exists_knownFailure_iff hsource).mp ⟨failure, hfailure, hsame⟩⟩
  · rintro ⟨source, hsource, hurl, htaken⟩
    obtain ⟨failure, hfailure, hsame⟩ := (exists_knownFailure_iff hsource).mpr htaken
    exact any_eq_true.mpr ⟨failure, hfailure, decide_eq_true (hsame.trans hurl.symm)⟩

/-- The entries a build has, before one of each id is taken. -/
def buildEntries (disk : Disk) (sources : List RegistrySource)
    (refresh : RegistrySource → Option Chars) (previous : Option RegistryIndex) :
    List RegistryEntry :=
  (scannedSources sources (knownFailures sources (failuresOf refresh sources))).flatMap
      (scanSource disk) ++
    carriedOverEntries (knownFailures sources (failuresOf refresh sources)) previous

theorem PluginId.key_injective {id id' : PluginId} : id.key = id'.key ↔ id = id' := by
  rcases id with ⟨ns, name⟩
  rcases id' with ⟨ns', name'⟩
  simp [PluginId.key]

theorem buildWithFailures_plugins {updatedAt : Int} :
    entry ∈ (buildWithFailures disk sources (failuresOf refresh sources) previous
        updatedAt).index.plugins ↔
      (buildEntries disk sources refresh previous).find? (fun e => decide (e.id = entry.id)) =
        some entry := by
  refine (FirstByKey.mem_sortDedup_iff fun entry : RegistryEntry => entry.id.key).trans ?_
  simp only [PluginId.key_injective]
  rfl

theorem nodup_plugins {failures : List RegistrySourceFailure} {updatedAt : Int} :
    ((buildWithFailures disk sources failures previous updatedAt).index.plugins.map (·.id)).Nodup := by
  have hnodup := FirstByKey.nodup_map_sortDedup (fun entry : RegistryEntry => entry.id.key)
    ((scannedSources sources (knownFailures sources failures)).flatMap (scanSource disk) ++
      carriedOverEntries (knownFailures sources failures) previous)
  refine List.Nodup.of_map PluginId.key ?_
  rw [map_map]
  exact hnodup

theorem of_mem_scanSource (h : entry ∈ scanSource disk source) :
    entry.id.namespace = source.namespace.value ∧ entry.sourceUrl = source.canonicalUrl := by
  obtain ⟨file, -, hscan⟩ := mem_filterMap.mp h
  unfold scanFile at hscan
  split at hscan
  next =>
    split at hscan
    next =>
      cases hscan
      exact ⟨rfl, rfl⟩
    next => cases hscan
  next => cases hscan

theorem source_of_mem_buildEntries (h : entry ∈ buildEntries disk sources refresh previous) :
    ∃ source ∈ sources, entry.sourceUrl = source.canonicalUrl := by
  rcases mem_append.mp h with h | h
  · obtain ⟨source, hsource, hentry⟩ := mem_flatMap.mp h
    exact ⟨source, (mem_scannedSources.mp hsource).1, (of_mem_scanSource hentry).2⟩
  · obtain ⟨-, source, hsource, hurl, -⟩ := mem_carriedOverEntries.mp h
    exact ⟨source, hsource, hurl⟩

/-! ### The first manifest of a name -/

/-- The first entry of a name comes from the first manifest of that name that is not hidden. -/
theorem find?_scanSource {name : Chars} {manifest : PluginManifest}
    (h : (manifests disk source).find? (fun m => m.marketplaceVisible && decide (m.name = name)) =
      some manifest) :
    ∃ logo, (scanSource disk source).find?
        (fun e => decide (e.id = ⟨source.namespace.value, name⟩)) =
      some (.fromManifest manifest source.namespace source.canonicalUrl logo) := by
  unfold manifests at h
  unfold scanSource
  generalize oraxManifestPaths disk source.registryDir = files at h ⊢
  induction files with
  | nil => cases h
  | cons file files ih =>
    cases hparsed : file.parsed with
    | error reason =>
      rw [filterMap_cons_none (by simp [hparsed, Except.toOption])] at h
      rw [filterMap_cons_none (by simp [scanFile, hparsed])]
      exact ih h
    | ok m =>
      rw [filterMap_cons_some (b := m) (by simp [hparsed, Except.toOption])] at h
      by_cases hvisible : m.marketplaceVisible = true
      · rw [filterMap_cons_some (by simp only [scanFile, hparsed, hvisible, if_true]; rfl)]
        by_cases hname : m.name = name
        · rw [List.find?_cons_of_pos (by simp [hvisible, hname])] at h
          cases h
          exact ⟨file.logo, List.find?_cons_of_pos (by simp [RegistryEntry.fromManifest, entryId, hname])⟩
        · rw [List.find?_cons_of_neg (by simp [hname])] at h
          rw [List.find?_cons_of_neg (by simp [RegistryEntry.fromManifest, entryId, hname])]
          exact ih h
      · rw [List.find?_cons_of_neg (by simp [hvisible])] at h
        rw [filterMap_cons_none (by simp [scanFile, hparsed, hvisible])]
        exact ih h

theorem manifest_of_mem_scanSource (h : entry ∈ scanSource disk source) :
    ∃ manifest ∈ manifests disk source, manifest.marketplaceVisible = true ∧
      manifest.name = entry.id.name := by
  obtain ⟨file, hfile, hscan⟩ := mem_filterMap.mp h
  unfold scanFile at hscan
  split at hscan
  next manifest hparsed =>
    split at hscan
    next hvisible =>
      cases hscan
      exact ⟨manifest, mem_filterMap.mpr ⟨file, hfile, by simp [hparsed, Except.toOption]⟩,
        hvisible, rfl⟩
    next => cases hscan
  next => cases hscan

/-- A name resolves to the first manifest of that name. -/
theorem resolveManifest_eq (disk : Disk) (source : RegistrySource) (name : Chars) :
    resolveManifest disk source ⟨source.namespace.value, name⟩ =
      (manifests disk source).find? fun m => decide (m.name = name) := by
  unfold resolveManifest manifests
  rw [if_neg (by simp)]
  induction oraxManifestPaths disk source.registryDir with
  | nil => rfl
  | cons file files ih =>
    cases hparsed : file.parsed with
    | error reason =>
      rw [filterMap_cons_none (by simp [hparsed, Except.toOption])]
      simpa [hparsed] using ih
    | ok m =>
      rw [filterMap_cons_some (b := m) (by simp [hparsed, Except.toOption])]
      by_cases hname : m.name = name
      · simp [hparsed, entryId, hname]
      · rw [List.find?_cons_of_neg (by simp [hname])]
        simpa [hparsed, entryId, hname] using ih

section Namespaces

variable (hunique : ∀ source ∈ sources, ∀ other ∈ sources,
  source.namespace.value = other.namespace.value → source = other)

include hunique

/-- An id resolves in the source that has its namespace. -/
theorem resolveManifestAll_eq (hsource : source ∈ sources) (name : Chars) :
    resolveManifestAll disk sources ⟨source.namespace.value, name⟩ =
      (manifests disk source).find? fun m => decide (m.name = name) := by
  rw [← resolveManifest_eq]
  refine FirstByKey.findSome?_eq_of_unique hsource fun other hother hsome => ?_
  refine hunique other hother source hsource ?_
  by_contra hne
  simp [resolveManifest, hne] at hsome

/-- The first entry of an id comes from the source that has its namespace, if that is read. -/
theorem find?_buildEntries (hsource : source ∈ sources)
    (hscanned : ¬TakenAsFailed sources refresh source) (name : Chars) :
    (buildEntries disk sources refresh previous).find?
        (fun e => decide (e.id = ⟨source.namespace.value, name⟩)) =
      ((scanSource disk source).find? fun e => decide (e.id = ⟨source.namespace.value, name⟩)).or
        ((carriedOverEntries (knownFailures sources (failuresOf refresh sources)) previous).find?
          fun e => decide (e.id = ⟨source.namespace.value, name⟩)) := by
  rw [buildEntries, List.find?_append, List.find?_flatMap]
  congr 1
  refine FirstByKey.findSome?_eq_of_unique (mem_scannedSources.mpr ⟨hsource, hscanned⟩) ?_
  intro other hother hsome
  obtain ⟨entry, hentry⟩ := Option.isSome_iff_exists.mp hsome
  have hid : entry.id = ⟨source.namespace.value, name⟩ := by simpa using List.find?_some hentry
  refine hunique other (mem_scannedSources.mp hother).1 source hsource ?_
  rw [← (of_mem_scanSource (mem_of_find?_eq_some hentry)).1, hid]

end Namespaces

end Build

end OraDesktop.Marketplace

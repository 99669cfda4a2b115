import OraDesktop.Lib.Fallible
import OraDesktop.Marketplace.Index

/-!
# What a rebuild keeps

A rebuilt index is faithful when it lists each plugin id once, keeps exactly the previous entries of the
sources that could not be refreshed, has nothing of the sources that are not enabled, describes what the
ids of refreshed sources resolve to, and is shown whole by the list of available plugins.

Three things stand in the way. The URL of a failure is canonicalised once more than that of its source,
so the failure is known only where that changes nothing. A previous entry is dropped if another one has
its id. And a manifest that is hidden from the marketplace is left out of the index but is found when its
id is resolved (`Unshadowed`). `Attributable` says for one rebuild that none of them happens.

## Main results

* `settled_of_reported` — failures are all known only if canonicalising again changes no URL of theirs
* `Attributable.faithful`, `Faithful.attributable` — when a build is faithful
* `rebuild_faithful_iff` — for every rebuild of a store that calls lead to
-/

namespace OraDesktop.Marketplace

open List RegistryEntry

/-! ### Faithful indexes -/

/-- The entry shows what the manifest says, so that what is listed is what installing would find. -/
abbrev Describes (entry : RegistryEntry) (manifest : PluginManifest) : Prop :=
  entry = .fromManifest manifest ⟨entry.id.namespace⟩ entry.sourceUrl entry.logo

/-- What an index is to be like, for the registry sources that are enabled and those that are not. -/
structure Faithful (store : Store) (sources disabled : List RegistrySource) (disk : Disk)
    (refresh : RegistrySource → Option Chars) (previous : Option RegistryIndex)
    (index : RegistryIndex) : Prop where
  once : (index.plugins.map (·.id)).Nodup
  reported : ∀ source ∈ sources, (refresh source).isSome →
    ∃ failure ∈ index.sourceFailures, failure.url = source.canonicalUrl
  kept : ∀ source ∈ sources, (refresh source).isSome → ∀ entry : RegistryEntry,
    entry.sourceUrl = source.canonicalUrl →
      (entry ∈ index.plugins ↔ entry ∈ previousEntries previous)
  disabled : ∀ source ∈ disabled, ∀ entry ∈ index.plugins, entry.sourceUrl ≠ source.canonicalUrl
  described : ∀ source ∈ sources, refresh source = none → ∀ entry ∈ index.plugins,
    entry.sourceUrl = source.canonicalUrl →
      ∃ manifest ∈ resolveManifestAll disk sources entry.id, Describes entry manifest
  shown : store.availablePlugins index = index.plugins

/-- No manifest that is hidden comes before one with its name that is not, unless both say the
same. -/
abbrev Unshadowed (disk : Disk) (source : RegistrySource) : Prop :=
  ∀ manifest ∈ manifests disk source,
    ∀ shown ∈ (manifests disk source).find?
      (fun m => m.marketplaceVisible && decide (m.name = manifest.name)),
    ∀ first ∈ (manifests disk source).find? (fun m => decide (m.name = manifest.name)),
      RegistryEntry.fromManifest first source.namespace source.canonicalUrl none =
        .fromManifest shown source.namespace source.canonicalUrl none

/-- Refreshing a source with this URL failed. -/
abbrev FailedUrl (sources : List RegistrySource) (refresh : RegistrySource → Option Chars) (url : Chars) :
    Prop :=
  ∃ source ∈ sources, (refresh source).isSome ∧ source.canonicalUrl = url

/-- Entries with this URL are shown, and it is not the URL of a source that is not enabled. -/
abbrev Store.Admits (store : Store) (disabled : List RegistrySource) (url : Chars) : Prop :=
  canonicalRepositoryUrl url ∈ store.enabledUrls ∧ ∀ source ∈ disabled, source.canonicalUrl ≠ url

/-- What one rebuild must find: failures whose URLs stay as they are, previous entries of the failed
URLs with ids of their own, checkouts in which nothing is shadowed, and URLs that are admitted
wherever there is something to list. -/
structure Attributable (store : Store) (sources disabled : List RegistrySource) (disk : Disk)
    (refresh : RegistrySource → Option Chars) (previous : Option RegistryIndex) : Prop where
  settled : ∀ source ∈ sources, (refresh source).isSome →
    canonicalRepositoryUrl source.canonicalUrl = source.canonicalUrl
  once : ∀ entry ∈ previousEntries previous, ∀ entry' ∈ previousEntries previous,
    FailedUrl sources refresh entry.sourceUrl → FailedUrl sources refresh entry'.sourceUrl →
      entry.id = entry'.id → entry = entry'
  own : ∀ entry ∈ previousEntries previous, FailedUrl sources refresh entry.sourceUrl →
    ∀ source ∈ sources, ¬FailedUrl sources refresh source.canonicalUrl →
      ∀ manifest ∈ manifests disk source, manifest.marketplaceVisible →
        entry.id ≠ entryId manifest source.namespace
  unshadowed : ∀ source ∈ sources, ¬FailedUrl sources refresh source.canonicalUrl →
    Unshadowed disk source
  /-- A refreshed source whose URL is also that of a failed one is not read. -/
  unread : ∀ source ∈ sources, refresh source = none →
    FailedUrl sources refresh source.canonicalUrl → ∀ entry ∈ previousEntries previous,
      entry.sourceUrl = source.canonicalUrl →
        ∃ manifest ∈ resolveManifestAll disk sources entry.id, Describes entry manifest
  carried : ∀ entry ∈ previousEntries previous, FailedUrl sources refresh entry.sourceUrl →
    store.Admits disabled entry.sourceUrl
  scanned : ∀ source ∈ sources, ¬FailedUrl sources refresh source.canonicalUrl →
    ∀ manifest ∈ manifests disk source, manifest.marketplaceVisible →
      store.Admits disabled source.canonicalUrl

variable {source : RegistrySource}

section Build

variable {disk : Disk} {store : Store} {sources disabled : List RegistrySource}
  {refresh : RegistrySource → Option Chars} {previous : Option RegistryIndex} {updatedAt : Int}
  {entry : RegistryEntry}

/-! ### Failures that are known -/

/-- Every failure is known under the URL of its source only if canonicalising those again changes
nothing: of the URLs it does change, the longest comes from no other one. -/
theorem settled_of_reported (hlower : ∀ source ∈ sources,
      lowercase source.canonicalUrl = source.canonicalUrl)
    (hreported : ∀ source ∈ sources, (refresh source).isSome → TakenAsFailed sources refresh source)
    (hsource : source ∈ sources) (hfailed : (refresh source).isSome) :
    canonicalRepositoryUrl source.canonicalUrl = source.canonicalUrl := by
  by_contra hchanged
  let changed := sources.filter fun source => (refresh source).isSome &&
    decide (canonicalRepositoryUrl source.canonicalUrl ≠ source.canonicalUrl)
  have hne : changed ≠ [] :=
    ne_nil_of_mem (mem_filter.mpr ⟨hsource, by simp [hfailed, hchanged]⟩)
  obtain ⟨longest, hlongest⟩ := Option.ne_none_iff_exists'.mp
    (mt (argmax_eq_none (f := fun source : RegistrySource => source.canonicalUrl.length)).mp hne)
  obtain ⟨hmem, hproperties⟩ := mem_filter.mp (argmax_mem hlongest)
  simp only [Bool.and_eq_true, decide_eq_true_eq] at hproperties
  obtain ⟨failed, hfailedmem, hsome, hurl⟩ := hreported longest hmem hproperties.1
  by_cases hsettled : canonicalRepositoryUrl failed.canonicalUrl = failed.canonicalUrl
  · rw [← hurl, hsettled] at hproperties
    exact hproperties.2 hsettled
  · have hlonger := length_canonicalRepositoryUrl_lt (hlower failed hfailedmem) hsettled
    rw [hurl] at hlonger
    exact not_lt_of_ge (le_of_mem_argmax
      (mem_filter.mpr ⟨hfailedmem, by simp [hsome, hsettled]⟩) hlongest) hlonger

section Settled

variable (hsettled : ∀ source ∈ sources, (refresh source).isSome →
  canonicalRepositoryUrl source.canonicalUrl = source.canonicalUrl)

include hsettled

theorem takenAsFailed_iff :
    TakenAsFailed sources refresh source ↔ FailedUrl sources refresh source.canonicalUrl :=
  exists_congr fun failed => and_congr_right fun hmem => and_congr_right fun hsome => by
    rw [hsettled failed hmem hsome]

/-- The entries of a build are those of the sources that are read and the previous ones of the failed
URLs. -/
theorem mem_buildEntries_iff :
    entry ∈ buildEntries disk sources refresh previous ↔
      (∃ source ∈ sources, ¬FailedUrl sources refresh source.canonicalUrl ∧
        entry ∈ scanSource disk source) ∨
      entry ∈ previousEntries previous ∧ FailedUrl sources refresh entry.sourceUrl := by
  rw [buildEntries, mem_append, mem_flatMap, mem_carriedOverEntries]
  simp only [mem_scannedSources, takenAsFailed_iff hsettled, and_assoc]
  refine or_congr_right (and_congr_right fun _ => ⟨?_, ?_⟩)
  · rintro ⟨source, -, hurl, hfailed⟩
    rwa [hurl]
  · rintro ⟨failed, hmem, hsome, hurl⟩
    exact ⟨failed, hmem, hurl.symm, failed, hmem, hsome, rfl⟩

end Settled

theorem mem_buildEntries_of_mem_plugins
    (h : entry ∈ (buildWithFailures disk sources (failuresOf refresh sources) previous
      updatedAt).index.plugins) : entry ∈ buildEntries disk sources refresh previous :=
  mem_of_find?_eq_some (buildWithFailures_plugins.mp h)

theorem Attributable.kept (h : Attributable store sources disabled disk refresh previous)
    (hfailed : FailedUrl sources refresh entry.sourceUrl) :
    entry ∈ (buildWithFailures disk sources (failuresOf refresh sources) previous
        updatedAt).index.plugins ↔ entry ∈ previousEntries previous := by
  constructor
  · intro hentry
    rcases (mem_buildEntries_iff h.settled).mp (mem_buildEntries_of_mem_plugins hentry) with
      ⟨source, -, hread, hscan⟩ | hcarried
    · exact absurd ((of_mem_scanSource hscan).2 ▸ hfailed) hread
    · exact hcarried.1
  · intro hprevious
    rw [buildWithFailures_plugins]
    refine FirstByKey.find?_eq_some_of_unique
      ((mem_buildEntries_iff h.settled).mpr (.inr ⟨hprevious, hfailed⟩)) (by simp) ?_
    intro other hother hid
    have hid : other.id = entry.id := of_decide_eq_true hid
    rcases (mem_buildEntries_iff h.settled).mp hother with ⟨source, hsource, hread, hscan⟩ | hcarried
    · obtain ⟨manifest, hmanifest, hvisible, hname⟩ := manifest_of_mem_scanSource hscan
      refine absurd ?_ (h.own entry hprevious hfailed source hsource hread manifest hmanifest hvisible)
      rw [← hid, entryId, hname, ← (of_mem_scanSource hscan).1]
    · exact h.once other hcarried.1 entry hprevious hcarried.2 hfailed hid

theorem Attributable.admits (h : Attributable store sources disabled disk refresh previous)
    (hentry : entry ∈ buildEntries disk sources refresh previous) :
    store.Admits disabled entry.sourceUrl := by
  rcases (mem_buildEntries_iff h.settled).mp hentry with ⟨source, hsource, hread, hscan⟩ | hcarried
  · obtain ⟨manifest, hmanifest, hvisible, -⟩ := manifest_of_mem_scanSource hscan
    rw [(of_mem_scanSource hscan).2]
    exact h.scanned source hsource hread manifest hmanifest hvisible
  · exact h.carried entry hcarried.1 hcarried.2

theorem Faithful.admits {index : RegistryIndex}
    (h : Faithful store sources disabled disk refresh previous index) (hentry : entry ∈ index.plugins) :
    store.Admits disabled entry.sourceUrl := by
  refine ⟨?_, fun source hsource heq => h.disabled source hsource entry hentry heq.symm⟩
  rw [← h.shown] at hentry
  exact of_decide_eq_true (mem_filter.mp hentry).2

section Namespaces

variable (hunique : ∀ source ∈ sources, ∀ other ∈ sources,
  source.namespace.value = other.namespace.value → source = other)
include hunique

/-- An entry of a source that is read describes what its id resolves to, if no manifest is shadowed
there. -/
theorem describes_of_mem_scanSource (hsource : source ∈ sources)
    (hscanned : ¬TakenAsFailed sources refresh source) (hunshadowed : Unshadowed disk source)
    (hentry : entry ∈ scanSource disk source)
    (hfirst : (buildEntries disk sources refresh previous).find?
      (fun e => decide (e.id = entry.id)) = some entry) :
    ∃ manifest ∈ resolveManifestAll disk sources entry.id, Describes entry manifest := by
  obtain ⟨hspace, hurl⟩ := of_mem_scanSource hentry
  have hid : entry.id = ⟨source.namespace.value, entry.id.name⟩ := by rw [← hspace]
  obtain ⟨listed, hlisted, hvisible, hname⟩ := manifest_of_mem_scanSource hentry
  -- some manifest of the name is not hidden, so there is a first one, and a first one of all
  obtain ⟨shown, hshown⟩ : ∃ shown, (manifests disk source).find?
      (fun m => m.marketplaceVisible && decide (m.name = entry.id.name)) = some shown := by
    rw [← Option.isSome_iff_exists, List.find?_isSome]
    exact ⟨listed, hlisted, by simp [hvisible, hname]⟩
  obtain ⟨first, hfound⟩ : ∃ first, (manifests disk source).find?
      (fun m => decide (m.name = entry.id.name)) = some first := by
    rw [← Option.isSome_iff_exists, List.find?_isSome]
    exact ⟨listed, hlisted, by simp [hname]⟩
  obtain ⟨logo, hscan⟩ := find?_scanSource hshown
  rw [hid, find?_buildEntries hunique hsource hscanned, hscan, Option.some_or] at hfirst
  have hentry' : fromManifest shown source.namespace source.canonicalUrl logo = entry :=
    Option.some.inj hfirst
  have hsame := hunshadowed listed hlisted shown (hname ▸ hshown) first (hname ▸ hfound)
  have hspace' : (⟨entry.id.namespace⟩ : PluginNamespace) = source.namespace := by rw [hspace]
  have hlogo : entry.logo = logo := by rw [← hentry']; rfl
  refine ⟨first, ?_, ?_⟩
  · rw [hid, resolveManifestAll_eq hunique hsource]
    exact hfound
  · rw [Describes, hspace', hurl, hlogo]
    calc entry = { fromManifest shown source.namespace source.canonicalUrl none with
            logo := logo } := hentry'.symm
      _ = .fromManifest first source.namespace source.canonicalUrl logo := by
          rw [← hsame]
          rfl

/-- The first manifest of a name that is not hidden is listed, if its source is read. -/
theorem mem_plugins_of_find? (hsource : source ∈ sources)
    (hscanned : ¬TakenAsFailed sources refresh source) {name : Chars} {shown : PluginManifest}
    (hshown : (manifests disk source).find?
      (fun m => m.marketplaceVisible && decide (m.name = name)) = some shown) (updatedAt : Int) :
    shown.name = name ∧
      ∃ logo, RegistryEntry.fromManifest shown source.namespace source.canonicalUrl logo ∈
        (buildWithFailures disk sources (failuresOf refresh sources) previous
          updatedAt).index.plugins := by
  have hname : shown.name = name := by
    have hfound := List.find?_some hshown
    simp only [Bool.and_eq_true, decide_eq_true_eq] at hfound
    exact hfound.2
  obtain ⟨logo, hscan⟩ := find?_scanSource hshown
  have hid : (fromManifest shown source.namespace source.canonicalUrl logo).id =
      ⟨source.namespace.value, name⟩ := congrArg (PluginId.mk _) hname
  refine ⟨hname, logo, buildWithFailures_plugins.mpr ?_⟩
  rw [hid, find?_buildEntries hunique hsource hscanned, hscan, Option.some_or]

/-- A source that is read has an entry for each manifest that is not hidden. -/
theorem exists_mem_plugins (hsource : source ∈ sources)
    (hscanned : ¬TakenAsFailed sources refresh source) {manifest : PluginManifest}
    (hmanifest : manifest ∈ manifests disk source) (hvisible : manifest.marketplaceVisible = true)
    (updatedAt : Int) :
    ∃ entry ∈ (buildWithFailures disk sources (failuresOf refresh sources) previous
        updatedAt).index.plugins,
      entry.id = entryId manifest source.namespace ∧ entry.sourceUrl = source.canonicalUrl := by
  obtain ⟨shown, hshown⟩ : ∃ shown, (manifests disk source).find?
      (fun m => m.marketplaceVisible && decide (m.name = manifest.name)) = some shown := by
    rw [← Option.isSome_iff_exists, List.find?_isSome]
    exact ⟨manifest, hmanifest, by simp [hvisible]⟩
  obtain ⟨hname, logo, hmem⟩ := mem_plugins_of_find? hunique hsource hscanned hshown updatedAt
  exact ⟨_, hmem, congrArg (PluginId.mk _) hname, rfl⟩

/-! ### Builds that are faithful -/

theorem Attributable.faithful (h : Attributable store sources disabled disk refresh previous) :
    Faithful store sources disabled disk refresh previous
      (buildWithFailures disk sources (failuresOf refresh sources) previous updatedAt).index := by
  refine ⟨nodup_plugins, fun source hsource hfailed => ?_, fun source hsource hfailed entry hurl => ?_,
    fun source hsource entry hentry hurl => ?_, fun source hsource hfresh entry hentry hurl => ?_, ?_⟩
  · exact (exists_knownFailure_iff hsource).mpr
      ((takenAsFailed_iff h.settled).mpr ⟨source, hsource, hfailed, rfl⟩)
  · exact h.kept ⟨source, hsource, hfailed, hurl.symm⟩
  · exact (h.admits (mem_buildEntries_of_mem_plugins hentry)).2 source hsource hurl.symm
  · rcases (mem_buildEntries_iff h.settled).mp (mem_buildEntries_of_mem_plugins hentry) with
      ⟨read, hread, hnot, hscan⟩ | ⟨hprevious, hfailed⟩
    · exact describes_of_mem_scanSource hunique hread (mt (takenAsFailed_iff h.settled).mp hnot)
        (h.unshadowed read hread hnot) hscan (buildWithFailures_plugins.mp hentry)
    · exact h.unread source hsource hfresh (hurl ▸ hfailed) entry hprevious hurl
  · exact filter_eq_self.mpr fun entry hentry =>
      decide_eq_true (h.admits (mem_buildEntries_of_mem_plugins hentry)).1

theorem Faithful.attributable (hlower : ∀ source ∈ sources,
      lowercase source.canonicalUrl = source.canonicalUrl)
    (h : Faithful store sources disabled disk refresh previous
      (buildWithFailures disk sources (failuresOf refresh sources) previous updatedAt).index) :
    Attributable store sources disabled disk refresh previous := by
  have hsettled : ∀ source ∈ sources, (refresh source).isSome →
      canonicalRepositoryUrl source.canonicalUrl = source.canonicalUrl := fun source hsource hfailed =>
    settled_of_reported hlower (fun source hsource hfailed =>
      (exists_knownFailure_iff hsource).mp (h.reported source hsource hfailed)) hsource hfailed
  have hkept : ∀ entry ∈ previousEntries previous, FailedUrl sources refresh entry.sourceUrl →
      entry ∈ (buildWithFailures disk sources (failuresOf refresh sources) previous
        updatedAt).index.plugins := by
    rintro entry hentry ⟨failed, hfailed, hsome, hurl⟩
    exact (h.kept failed hfailed hsome entry hurl.symm).mpr hentry
  have hread : ∀ source ∈ sources, ¬FailedUrl sources refresh source.canonicalUrl →
      ¬TakenAsFailed sources refresh source := fun _ _ => mt (takenAsFailed_iff hsettled).mp
  refine ⟨hsettled, fun entry hentry entry' hentry' hfailed hfailed' hid => ?_,
    fun entry hentry hfailed source hsource hnot manifest hmanifest hvisible hid => ?_,
    fun source hsource hnot manifest _ shown hshown first hfirst => ?_,
    fun source hsource hfresh hfailed entry hentry hurl => ?_,
    fun entry hentry hfailed => h.admits (hkept entry hentry hfailed),
    fun source hsource hnot manifest hmanifest hvisible => ?_⟩
  · exact inj_on_of_nodup_map h.once (hkept entry hentry hfailed) (hkept entry' hentry' hfailed') hid
  · -- the manifest's entry would be the one that is kept
    obtain ⟨listed, hlisted, hid', hurl⟩ := exists_mem_plugins hunique hsource
      (hread source hsource hnot) hmanifest hvisible updatedAt
    have hsame := inj_on_of_nodup_map h.once (hkept entry hentry hfailed) hlisted
      (hid.trans hid'.symm)
    rw [hsame, hurl] at hfailed
    exact hnot hfailed
  · obtain ⟨hname, logo, hmem⟩ := mem_plugins_of_find? hunique hsource (hread source hsource hnot)
      hshown updatedAt
    have hfresh : refresh source = none := by
      by_contra hsome
      exact hnot ⟨source, hsource, Option.isSome_iff_ne_none.mpr hsome, rfl⟩
    obtain ⟨resolved, hresolved, hdescribed⟩ := h.described source hsource hfresh _ hmem rfl
    have hid : (fromManifest shown source.namespace source.canonicalUrl logo).id =
        ⟨source.namespace.value, manifest.name⟩ := congrArg (PluginId.mk _) hname
    rw [hid, resolveManifestAll_eq hunique hsource, Option.mem_def.mp hfirst] at hresolved
    cases hresolved
    have hcards := congrArg (fun e : RegistryEntry => { e with logo := none }) hdescribed
    exact hcards.symm
  · exact h.described source hsource hfresh entry (hkept entry hentry (hurl ▸ hfailed)) hurl
  · obtain ⟨listed, hlisted, -, hurl⟩ := exists_mem_plugins hunique hsource
      (hread source hsource hnot) hmanifest hvisible updatedAt
    exact hurl ▸ h.admits hlisted

end Namespaces

end Build

/-! ### Rebuilds of a store -/

section Standards

variable [UrlStandard] [Sha256] {Good : Chars → Prop} {Rel : Chars → Chars → Prop} {store : Store}
  {sourcesRoot : Path}

/-- The rebuild returns a faithful index. -/
def Store.RebuildsFaithfully (sourcesRoot : Path) (store : Store) (sources disabled : List RegistrySource)
    (disk : Disk) (refresh : RegistrySource → Option Chars) (previous : Option RegistryIndex)
    (refreshedAt : Int) : Prop :=
  ∃ build, store.rebuildRegistryIndex sourcesRoot disk refresh previous refreshedAt = (.ok build, store) ∧
    Faithful store sources disabled disk refresh previous build.index

theorem Store.Sound.resolveSources_eq (h : store.Sound Good Rel) {rows : List SourceRow}
    (hrows : rows ⊆ store.sources) (sourcesRoot : Path) :
    ∃ sources, store.resolveSources sourcesRoot rows = (.ok sources, store) ∧
      List.Forall₂ (fun row source =>
        store.registrySource sourcesRoot row.toMarketplaceSource = (.ok source, store)) rows sources := by
  induction rows with
  | nil => exact ⟨[], rfl, .nil⟩
  | cons row rows ih =>
    obtain ⟨parsed, ns, -, -, hrow⟩ := h.registrySource_eq (hrows mem_cons_self) sourcesRoot
    obtain ⟨sources, hresolved, hsources⟩ := ih fun _ hmem => hrows (mem_cons_of_mem _ hmem)
    refine ⟨_, ?_, .cons hrow hsources⟩
    unfold Store.resolveSources
    rw [hrow]
    dsimp only
    rw [hresolved]

theorem Store.Sound.sources_unique (h : store.Sound Good Rel) (hreq : Requirements Good Rel)
    {row row' : SourceRow} (hrow : row ∈ store.sources) (hrow' : row' ∈ store.sources)
    {source source' : RegistrySource}
    (hsource : store.registrySource sourcesRoot row.toMarketplaceSource = (.ok source, store))
    (hsource' : store.registrySource sourcesRoot row'.toMarketplaceSource = (.ok source', store))
    (hspace : source.namespace.value = source'.namespace.value) : source = source' := by
  obtain ⟨parsed, ns, -, hnames, heq⟩ := h.registrySource_eq hrow sourcesRoot
  obtain ⟨parsed', ns', -, hnames', heq'⟩ := h.registrySource_eq hrow' sourcesRoot
  have hsame : row = row' := by
    by_contra hne
    rw [heq] at hsource
    rw [heq'] at hsource'
    cases hsource
    cases hsource'
    obtain rfl : ns = ns' := congrArg PluginNamespace.mk hspace
    have hsymm : Std.Symm (SourceRow.Distinguished Rel) := ⟨fun _ _ h => h.symm hreq⟩
    exact (h.distinguished.forall hrow hrow' hne).canonical (hnames.injective h.derived hnames')
  subst hsame
  rw [hsource] at hsource'
  cases hsource'
  rfl

omit [UrlStandard] [Sha256] in
theorem requirements_true : Requirements (fun _ => True) (fun _ _ => True) :=
  ⟨trivial, fun _ _ _ => trivial⟩

/-- Whatever calls led to a store, its sources resolve, and a rebuild of the enabled ones is faithful
just if it finds what it must. -/
theorem rebuild_faithful_iff (sourcesRoot : Path) {journal : List (Call × Store)}
    (hrun : Journal.Path (fun store call after => after = (store.apply sourcesRoot call).2)
      .empty journal store) (disk : Disk) (refresh : RegistrySource → Option Chars)
    (previous : Option RegistryIndex) (refreshedAt : Int) :
    ∃ sources disabled,
      store.resolveSources sourcesRoot store.enabledRows = (.ok sources, store) ∧
      store.resolveSources sourcesRoot store.disabledRows = (.ok disabled, store) ∧
      (store.RebuildsFaithfully sourcesRoot sources disabled disk refresh previous refreshedAt ↔
        Attributable store sources disabled disk refresh previous) := by
  have hsound := (Store.Sound.empty.run requirements_true
    (fun store call after (h : after = (store.apply sourcesRoot call).2) =>
      ⟨h, fun _ => by cases call <;> simp [Meets]⟩) hrun).1
  have henabledRows : store.enabledRows ⊆ store.sources := filter_sublist.subset
  obtain ⟨sources, hresolved, hsources⟩ := hsound.resolveSources_eq henabledRows sourcesRoot
  obtain ⟨disabled, hdisabled, -⟩ := hsound.resolveSources_eq filter_sublist.subset sourcesRoot
  have hunique : ∀ source ∈ sources, ∀ other ∈ sources,
      source.namespace.value = other.namespace.value → source = other := by
    intro source hsource other hother hspace
    obtain ⟨row, hrow, hfirst⟩ := Fallible.exists_left hsources hsource
    obtain ⟨row', hrow', hsecond⟩ := Fallible.exists_left hsources hother
    exact hsound.sources_unique requirements_true (henabledRows hrow) (henabledRows hrow') hfirst
      hsecond hspace
  have hlower : ∀ source ∈ sources, lowercase source.canonicalUrl = source.canonicalUrl := by
    intro source hsource
    obtain ⟨row, hrow, hfound⟩ := Fallible.exists_left hsources hsource
    obtain ⟨parsed, ns, -, -, heq⟩ := hsound.registrySource_eq (henabledRows hrow) sourcesRoot
    rw [heq] at hfound
    cases hfound
    exact lowercase_canonicalRepositoryUrl _
  have hrebuild : store.rebuildRegistryIndex sourcesRoot disk refresh previous refreshedAt =
      (.ok (composeRebuild disk sources (failuresOf refresh sources) previous refreshedAt), store) := by
    unfold Store.rebuildRegistryIndex
    rw [hresolved]
    rfl
  refine ⟨sources, disabled, hresolved, hdisabled, ?_, fun h => ⟨_, hrebuild, h.faithful hunique⟩⟩
  rintro ⟨build, hbuild, hfaithful⟩
  rw [hrebuild] at hbuild
  cases hbuild
  exact hfaithful.attributable hunique hlower

end Standards

/-! ### Rebuilds that lose and misattribute -/

def sampleManifest (name : Chars) : PluginManifest :=
  { name := name, title := [], kind := "skill".toList, version := "1.0.0".toList,
    description := [], releaseSource := none, pack := none, marketplaceVisible := true }

/-- Refreshing fails for the sources below a URL. -/
def failsBelow (url : String) (source : RegistrySource) : Option Chars :=
  if url.toList <+: source.canonicalUrl then some "offline".toList else none

def Store.rebuilt [UrlStandard] [Sha256] (store : Store) (disk : Disk)
    (refresh : RegistrySource → Option Chars) (previous : Option RegistryIndex) :
    Option RegistryIndex :=
  (store.rebuildRegistryIndex [] disk refresh previous 7).1.toOption.map (·.index)

/-- The path of a plugin's manifest in a checkout. -/
def manifestPath (checkout : List String) (plugin : String) : Path :=
  checkout.map (·.toList) ++ ["registry".toList, plugin.toList, "orax.toml".toList]

/-- The refresh of a source whose path ends in `.git` twice fails: the failure is not reported and the
entry it had is lost, and what is listed of its checkout instead is not shown. And a hidden manifest
comes before one with its name that is listed. -/
theorem failed_refresh_loses_entries :
    let _ := UrlStandard.literal
    let _ := Sha256.zero
    let store := Store.after [.opened, .add (enabledSource "https://example.com/repo.git.git")]
    let entry := fromManifest (sampleManifest "tool".toList)
      ⟨"repo-git.00000000".toList⟩ "https://example.com/repo.git".toList none
    let checkout : Disk :=
      [⟨manifestPath ["example.com", "repo.git"] "tool", .ok (sampleManifest "tool".toList), none⟩]
    let official := Store.after [.opened]
    let hidden : PluginManifest :=
      { sampleManifest "tool".toList with version := "2.0.0".toList, marketplaceVisible := false }
    let shadowed : Disk :=
      [⟨manifestPath ["github.com", "ora-space", "marketplace"] "a", .ok hidden, none⟩,
        ⟨manifestPath ["github.com", "ora-space", "marketplace"] "b",
          .ok (sampleManifest "tool".toList), none⟩]
    store.rebuilt [] (failsBelow "https://example.com/") (some ⟨0, [entry], []⟩) = some ⟨7, [], []⟩ ∧
    store.rebuilt checkout (failsBelow "https://example.com/") none = some ⟨7, [entry], []⟩ ∧
    store.availablePlugins ⟨7, [entry], []⟩ = [] ∧
    ((official.rebuilt shadowed (fun _ => none) none).map fun index =>
        index.plugins.map fun entry => (entry.identifier, entry.version)) =
      some [("tool".toList, "1.0.0".toList)] ∧
    ((official.resolveSources [] official.enabledRows).1.toOption.map fun sources =>
        (resolveManifestAll shadowed sources ⟨"official".toList, "tool".toList⟩).map (·.version)) =
      some (some "2.0.0".toList) := by
  decide +kernel


/-- The third party's source cannot be refreshed: its entry is kept and the official checkout is
read. -/
theorem rebuild_faithful_acme :
    let _ := UrlStandard.literal
    let _ := Sha256.zero
    let store := Store.after [.opened, acmeCall]
    let refresh := failsBelow "https://github.com/acme/"
    let entry := fromManifest (sampleManifest "tool".toList) ⟨"plugins.00000000".toList⟩
      "https://github.com/acme/plugins".toList none
    let disk : Disk := [⟨manifestPath ["github.com", "ora-space", "marketplace"] "tool",
      .ok (sampleManifest "tool".toList), none⟩]
    ∃ sources disabled build, store.resolveSources [] store.enabledRows = (.ok sources, store) ∧
      store.rebuildRegistryIndex [] disk refresh (some ⟨0, [entry], []⟩) 7 = (.ok build, store) ∧
      Faithful store sources disabled disk refresh (some ⟨0, [entry], []⟩) build.index ∧
      build.index.plugins.length = 2 := by
  intro _ _ store refresh entry disk
  have hrun : Journal.Path (fun store call after => after = (store.apply [] call).2) .empty
      [(.opened, Store.after [.opened]), (acmeCall, store)] store := .cons rfl (.cons rfl (.nil _))
  obtain ⟨sources, disabled, hresolved, hdisabled, hiff⟩ :=
    rebuild_faithful_iff [] hrun disk refresh (some ⟨0, [entry], []⟩) 7
  obtain rfl : (store.resolveSources [] store.enabledRows).1.toOption.getD [] = sources := by
    rw [hresolved]
    rfl
  obtain rfl : (store.resolveSources [] store.disabledRows).1.toOption.getD [] = disabled := by
    rw [hdisabled]
    rfl
  obtain ⟨build, hbuild, hfaithful⟩ := hiff.mpr (by constructor <;> decide +kernel)
  refine ⟨_, _, build, hresolved, hbuild, hfaithful, ?_⟩
  have hlength : (store.rebuilt disk refresh (some ⟨0, [entry], []⟩)).map (·.plugins.length) =
      some 2 := by
    decide +kernel
  rw [Store.rebuilt, hbuild] at hlength
  exact Option.some.inj hlength

end OraDesktop.Marketplace
